import DocMapper.Number.Double

/-!
# Shortest decimal text

A double is written with the fewest digits that read back as the same double;
of two such numerals of one length the nearer is taken, and at equal distance
the one with an even last digit.
-/

namespace DocMapper.Double

/-- A power of ten so large that `10 ^ scale` units hold many whole tens. -/
def scale : Nat := 400

/-- The numerals of `count` digits next below and next above the value `n`
units: the lower one, and the exponent of their last digit plus `scale`. -/
def bracket (n count : Nat) : Nat × Nat :=
  let scaled := n * Nat.pow 10 scale / unitsPerOne
  let grid := decimalLength scaled - count
  (scaled / Nat.pow 10 grid, grid)

/-- The numeral of a bracket that reads back; of two the nearer one, as `order`
compares the value with the middle. -/
def nearer? (lowReads highReads : Bool) (order : Ordering) (low : Nat) : Option Nat :=
  match lowReads, highReads with
  | true, false => some low
  | false, true => some (low + 1)
  | false, false => none
  | true, true =>
      match order with
      | .lt => some low
      | .gt => some (low + 1)
      | .eq => if low % 2 = 0 then some low else some (low + 1)

def readsBack (mantissa exponent : Nat) (place : Int) (digits : Nat) : Bool :=
  ofDecimal false digits place == .finite false mantissa exponent

def numeral? (mantissa exponent count : Nat) : Option (Nat × Int) :=
  let n := mantissa * Nat.pow 2 exponent
  let (low, grid) := bracket n count
  let place : Int := (grid : Int) - scale
  let twice := 2 * n * Nat.pow 10 scale
  let middle := (2 * low + 1) * Nat.pow 10 grid * unitsPerOne
  (nearer? (readsBack mantissa exponent place low) (readsBack mantissa exponent place (low + 1))
    (compare twice middle) low).map (·, place)

/-- The digits of the shortest numeral and the exponent of its last digit.
Seventeen digits always suffice. -/
def shortest (mantissa exponent : Nat) : Nat × Int :=
  ((List.range' 1 17).findSome? (numeral? mantissa exponent)).getD (mantissa, 0)

structure Layout where
  /-- Leading digits at `10 ^ e` with `leastPositional ≤ e` need no exponent. -/
  leastPositional : Int
  /-- The first power of ten that is written with an exponent. -/
  firstExponential : Int
  exponentWidth : Nat

def layout : Layout := ⟨-4, 16, 2⟩

def padLeft (width : Nat) (s : String) : String :=
  String.ofList (List.replicate (width - s.length) '0') ++ s

def dropTrailingZeros (digits : List Char) : List Char :=
  (digits.reverse.dropWhile (· == '0')).reverse

def layOut (style : Layout) (digits : Nat) (place : Int) : String :=
  let all := Nat.toDigits 10 digits
  let point : Int := place + all.length
  let ds := dropTrailingZeros all
  if style.leastPositional < point ∧ point ≤ style.firstExponential then
    match point with
    | .ofNat (p + 1) =>
        let whole := (ds ++ List.replicate (p + 1 - ds.length) '0').take (p + 1)
        let fraction := ds.drop (p + 1)
        String.ofList (whole ++ '.' :: (if fraction.isEmpty then ['0'] else fraction))
    | p => String.ofList ('0' :: '.' :: (List.replicate p.natAbs '0' ++ ds))
  else
    let power := point - 1
    let fraction := ds.drop 1
    let lead := ds.take 1 ++ (if fraction.isEmpty then [] else '.' :: fraction)
    let sign := if power < 0 then "-" else "+"
    String.ofList lead ++ "e" ++ sign ++ padLeft style.exponentWidth (toString power.natAbs)

/-- The text of a double: shortest digits, a sign for negative zero too, and
`inf` for the infinities. -/
def text (x : Double) : String :=
  let sign := if x.isNegative then "-" else ""
  match x with
  | .infinite _ => sign ++ "inf"
  | .finite _ 0 _ => sign ++ "0.0"
  | .finite _ mantissa exponent =>
      let numeral := shortest mantissa exponent
      sign ++ layOut layout numeral.1 numeral.2

end DocMapper.Double
