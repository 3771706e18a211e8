/-!
# Double-precision numbers

A finite double is a whole multiple of the smallest positive one, `2 ^ -1074`,
called a unit here.  Counting in units turns the order of doubles and integers
into the order of `Int`, so comparisons between the two are exact.  There is no
"not a number": no text that is read here denotes one.  Powers are those of `Nat.pow`,
whichever instance of `^` is in scope.
-/

namespace DocMapper

/-- A finite double is `mantissa * 2 ^ exponent` units, with
`mantissa < 2 ^ 53`, and `2 ^ 52 ≤ mantissa` unless the exponent is zero. -/
inductive Double where
  | finite (negative : Bool) (mantissa exponent : Nat)
  | infinite (negative : Bool)
  deriving DecidableEq, Repr

/-- The number of units in one, as a product of powers that are each small
enough to be evaluated in a proof. -/
def unitsPerOne : Nat :=
  Nat.pow 2 256 * Nat.pow 2 256 * Nat.pow 2 256 * Nat.pow 2 256 * Nat.pow 2 50

theorem unitsPerOne_eq : unitsPerOne = Nat.pow 2 1074 := by decide +kernel

theorem unitsPerOne_pos : 0 < unitsPerOne := by decide +kernel

/-- The value of a number in units, or one of the two infinities. -/
inductive Quantity where
  | negInfinity
  | units (count : Int)
  | posInfinity
  deriving DecidableEq, Repr

namespace Quantity

def lt : Quantity → Quantity → Bool
  | .negInfinity, .negInfinity => false
  | .negInfinity, _ => true
  | .units _, .negInfinity => false
  | .units a, .units b => decide (a < b)
  | .units _, .posInfinity => true
  | .posInfinity, _ => false

def ofInt (i : Int) : Quantity := .units (i * unitsPerOne)

theorem lt_irrefl (a : Quantity) : a.lt a = false := by
  cases a <;> simp [lt]

theorem lt_trans {a b c : Quantity} (h₁ : a.lt b) (h₂ : b.lt c) : a.lt c := by
  cases a <;> cases b <;> cases c <;> simp_all [lt]
  omega

theorem lt_or_eq_or_gt (a b : Quantity) : a.lt b ∨ a = b ∨ b.lt a := by
  cases a <;> cases b <;> simp [lt]
  omega

theorem ofInt_inj {i j : Int} : ofInt i = ofInt j ↔ i = j := by
  have h : (unitsPerOne : Int) ≠ 0 := by
    have := unitsPerOne_pos
    omega
  simp [ofInt, Int.mul_eq_mul_right_iff h]

theorem lt_ofInt {i j : Int} : (ofInt i).lt (ofInt j) = decide (i < j) := by
  have h : (0 : Int) < unitsPerOne := by
    have := unitsPerOne_pos
    omega
  simp [lt, ofInt, Int.mul_lt_mul_right h]

end Quantity

namespace Double

def quantity : Double → Quantity
  | .finite negative mantissa exponent =>
      let magnitude : Int := (mantissa * Nat.pow 2 exponent : Nat)
      .units (if negative then -magnitude else magnitude)
  | .infinite true => .negInfinity
  | .infinite false => .posInfinity

def isZero : Double → Bool
  | .finite _ mantissa _ => mantissa == 0
  | .infinite _ => false

def isNegative : Double → Bool
  | .finite negative _ _ => negative
  | .infinite negative => negative

def whole? (x : Double) : Option Int :=
  match x.quantity with
  | .units n => if n % unitsPerOne = 0 then some (n / unitsPerOne) else none
  | _ => none

def truncated? (x : Double) : Option Int :=
  match x.quantity with
  | .units n => some (n.tdiv unitsPerOne)
  | _ => none

/-! ## Rounding -/

/-- The whole number nearest to `n / d`; a tie goes to the even one. -/
def roundHalfEven (n d : Nat) : Nat :=
  let q := n / d
  let r := n % d
  if 2 * r < d then q
  else if d < 2 * r then q + 1
  else if q % 2 = 0 then q else q + 1

def ofUnits (negative : Bool) (n d : Nat) : Double :=
  let shift := (n / d).log2 - 52
  let mantissa := roundHalfEven n (d * Nat.pow 2 shift)
  let (mantissa, shift) :=
    if mantissa = Nat.pow 2 53 then (Nat.pow 2 52, shift + 1) else (mantissa, shift)
  if 2045 < shift then .infinite negative
  else .finite negative mantissa shift

def decimalLength (n : Nat) : Nat := (Nat.toDigits 10 n).length

/-- The double nearest to `digits * 10 ^ exponent`.  Beyond the two limits the
answer is known without computing the power. -/
def ofDecimal (negative : Bool) (digits : Nat) (exponent : Int) : Double :=
  let size := exponent + decimalLength digits
  if digits = 0 ∨ size < -330 then .finite negative 0 0
  else if 310 < size then .infinite negative
  else match exponent with
    | .ofNat e => ofUnits negative (digits * Nat.pow 10 e * unitsPerOne) 1
    | .negSucc e => ofUnits negative (digits * unitsPerOne) (Nat.pow 10 (e + 1))

def ofInt (i : Int) : Double := ofDecimal (i < 0) i.natAbs 0

end Double

end DocMapper
