import DocMapper.Number.Digits
import DocMapper.Number.Double
import DocMapper.Text.Blank

/-!
# Numbers written by hand

The numbers of a configuration are written as people write them: with blanks
around, a sign of either kind, and underscores between digits.  A whole number
may have a fraction of zeros; a decimal number may lack the digits on one side
of its point.
-/

namespace DocMapper.Written

def hasDoubled : List Char → Bool
  | '_' :: '_' :: _ => true
  | _ :: rest => hasDoubled rest
  | [] => false

/-- A text without its underscores, each of which has to stand alone and inside
the text. -/
def withoutUnderscores? (cs : List Char) : Option (List Char) :=
  if cs.head? = some '_' ∨ cs.getLast? = some '_' ∨ hasDoubled cs then none
  else some (cs.filter (· != '_'))

def digitsThenZeros? (cs : List Char) : Option Nat :=
  match Digits.span cs with
  | ([], _) => none
  | (ds, []) => some (Digits.value ds)
  | (ds, '.' :: zeros) => if zeros.all (· == '0') then some (Digits.value ds) else none
  | _ => none

def whole? (s : String) : Option Int := do
  let (negative, unsigned) := Digits.sign (Text.trimBy Text.isBlank s.toList)
  let n ← digitsThenZeros? (← withoutUnderscores? unsigned)
  return Digits.signed negative n

def exponent? : List Char → Option Int
  | [] => some 0
  | e :: rest =>
      if e = 'e' ∨ e = 'E' then
        let (negative, unsigned) := Digits.sign rest
        match Digits.span unsigned with
        | ([], _) => none
        | (ds, []) => some (Digits.signed negative (Digits.value ds))
        | _ => none
      else none

def finite? (negative : Bool) (cs : List Char) : Option Double := do
  let (whole, rest) := Digits.span cs
  let (fraction, rest) :=
    match rest with
    | '.' :: rest => Digits.span rest
    | rest => ([], rest)
  if whole.isEmpty && fraction.isEmpty then none
  else
    let exponent ← exponent? rest
    return .ofDecimal negative (Digits.value (whole ++ fraction)) (exponent - fraction.length)

def infinityNames : List String := ["inf", "infinity"]

def decimal? (s : String) : Option Double := do
  let (negative, unsigned) := Digits.sign (Text.trimBy Text.isBlank s.toList)
  if infinityNames.contains (String.ofList (unsigned.map Char.toLower)) then
    return .infinite negative
  else finite? negative (← withoutUnderscores? unsigned)

end DocMapper.Written
