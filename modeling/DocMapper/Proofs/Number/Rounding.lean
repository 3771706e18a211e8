import DocMapper.Number.Shortest
import Mathlib.Tactic.Linarith
import Mathlib.Tactic.Ring
import Mathlib.Tactic.Zify

/-!
# Rounding to doubles

A quantity rounds to the double that it is nearest to.  The gap below a power of two is half
the gap above it, and so a quantity has to be twice as near from below.
-/

namespace DocMapper.Double

/-- Exactly one well-formed double stands for each number, apart from the sign of zero. -/
def WellFormed : Double → Prop
  | .finite _ mantissa exponent =>
      mantissa < 2 ^ 53 ∧ (2 ^ 52 ≤ mantissa ∨ exponent = 0) ∧ exponent ≤ 2045
  | .infinite _ => True

instance (x : Double) : Decidable x.WellFormed := by
  cases x <;> unfold WellFormed <;> infer_instance

theorem roundHalfEven_eq {n d m : Nat} (pos : 0 < d) (above : 2 * m * d < 2 * n + d)
    (below : 2 * n < (2 * m + 1) * d) : roundHalfEven n d = m := by
  have split := Nat.div_add_mod n d
  have less := Nat.mod_lt n pos
  unfold roundHalfEven
  generalize n / d = q at split ⊢
  generalize n % d = r at split less ⊢
  subst split
  have upper : q < m + 1 := by
    by_contra far
    have : (m + 1) * d ≤ q * d := Nat.mul_le_mul_right d (by omega)
    nlinarith
  have lower : m < q + 2 := by
    by_contra far
    have : (q + 2) * d ≤ m * d := Nat.mul_le_mul_right d (by omega)
    nlinarith
  obtain rfl | rfl : q = m ∨ m = q + 1 := by omega
  · have small : 2 * r < d := by nlinarith
    rw [if_pos small]
  · have large : d < 2 * r := by nlinarith
    rw [if_neg (by omega), if_pos large]

theorem roundHalfEven_mul {c : Nat} (pos : 0 < c) (n d : Nat) :
    roundHalfEven (n * c) (d * c) = roundHalfEven n d := by
  unfold roundHalfEven
  rw [Nat.mul_div_mul_right n d pos, Nat.mul_mod_mul_right]
  have left : 2 * (n % d * c) < d * c ↔ 2 * (n % d) < d := by
    rw [← Nat.mul_assoc]
    exact Nat.mul_lt_mul_right pos
  have right : d * c < 2 * (n % d * c) ↔ d < 2 * (n % d) := by
    rw [← Nat.mul_assoc]
    exact Nat.mul_lt_mul_right pos
  simp only [left, right]

theorem ofUnits_mul {c : Nat} (pos : 0 < c) (negative : Bool) (n d : Nat) :
    ofUnits negative (n * c) (d * c) = ofUnits negative n d := by
  unfold ofUnits
  rw [Nat.mul_div_mul_right n d pos]
  dsimp only
  rw [Nat.mul_right_comm d c, roundHalfEven_mul pos]

structure Near (n d mantissa exponent : Nat) : Prop where
  above : 2 * mantissa * (d * 2 ^ exponent) < 2 * n + d * 2 ^ exponent
  below : 2 * n < (2 * mantissa + 1) * (d * 2 ^ exponent)
  /-- The gap below a power of two is half the gap above it. -/
  nearer : mantissa = 2 ^ 52 → 0 < exponent →
    4 * mantissa * (d * 2 ^ exponent) < 4 * n + d * 2 ^ exponent

theorem ofUnits_fits {n d mantissa shift : Nat} (negative : Bool)
    (size : (n / d).log2 - 52 = shift) (rounds : roundHalfEven n (d * 2 ^ shift) = mantissa)
    (small : mantissa < 2 ^ 53) (bounded : shift ≤ 2045) :
    ofUnits negative n d = .finite negative mantissa shift := by
  unfold ofUnits
  simp only [Nat.pow_eq, size, rounds]
  rw [if_neg (Nat.ne_of_lt small)]
  exact if_neg (Nat.not_lt.2 bounded)

theorem ofUnits_carries {n d shift : Nat} (negative : Bool)
    (size : (n / d).log2 - 52 = shift) (rounds : roundHalfEven n (d * 2 ^ shift) = 2 ^ 53)
    (bounded : shift + 1 ≤ 2045) :
    ofUnits negative n d = .finite negative (2 ^ 52) (shift + 1) := by
  unfold ofUnits
  simp only [Nat.pow_eq, size, rounds]
  rw [if_pos trivial]
  exact if_neg (Nat.not_lt.2 bounded)

theorem log2_eq {k j : Nat} (above : 2 ^ j ≤ k) (below : k < 2 ^ (j + 1)) : k.log2 = j := by
  have nonzero : k ≠ 0 := by
    rintro rfl
    exact absurd above (Nat.not_le.2 (Nat.two_pow_pos j))
  have lower := (Nat.le_log2 nonzero).2 above
  have upper := (Nat.log2_lt nonzero).2 below
  omega

theorem log2_le {k j : Nat} (below : k < 2 ^ (j + 1)) : k.log2 ≤ j := by
  by_cases zero : k = 0
  · rw [zero]
    exact Nat.zero_le _
  · exact Nat.le_of_lt_succ ((Nat.log2_lt zero).2 below)

/-- A quotient right below a power of two is rounded up to it, and has the next size then. -/
theorem ofUnits_power {n d e : Nat} (pos : 0 < d) (negative : Bool)
    (half : n < 2 ^ 53 * (d * 2 ^ e)) (close : 2 ^ 54 * (d * 2 ^ e) < 2 * n + d * 2 ^ e)
    (bounded : e + 1 ≤ 2045) :
    ofUnits negative n d = .finite negative (2 ^ 52) (e + 1) := by
  have step : 0 < d * 2 ^ e := Nat.mul_pos pos (Nat.two_pow_pos e)
  have size : (n / d).log2 = 52 + e := by
    refine log2_eq ?_ ?_
    · rw [Nat.pow_add, Nat.le_div_iff_mul_le pos, Nat.mul_assoc, Nat.mul_comm (2 ^ e)]
      omega
    · rw [show 52 + e + 1 = 53 + e by omega, Nat.pow_add, Nat.div_lt_iff_lt_mul pos,
        Nat.mul_assoc, Nat.mul_comm (2 ^ e)]
      exact half
  refine ofUnits_carries negative ?_ (roundHalfEven_eq step ?_ ?_) bounded
  · omega
  · omega
  · omega

theorem mantissa_eq {n step mantissa : Nat} (large : 2 ^ 52 ≤ mantissa)
    (above : 2 * mantissa * step < 2 * n + step) (smaller : n < 2 ^ 52 * step) :
    mantissa = 2 ^ 52 := by
  by_contra other
  have : (2 ^ 52 + 1) * step ≤ mantissa * step := Nat.mul_le_mul_right _ (by omega)
  nlinarith

theorem ofUnits_near {n d mantissa exponent : Nat} (pos : 0 < d) (negative : Bool)
    (formed : (finite negative mantissa exponent).WellFormed)
    (near : Near n d mantissa exponent) :
    ofUnits negative n d = .finite negative mantissa exponent := by
  obtain ⟨small, normal, bounded⟩ := formed
  obtain ⟨above, below, nearer⟩ := near
  have step : 0 < d * 2 ^ exponent := Nat.mul_pos pos (Nat.two_pow_pos exponent)
  have rounds : roundHalfEven n (d * 2 ^ exponent) = mantissa := roundHalfEven_eq step above below
  have short : n / d < (mantissa + 1) * 2 ^ exponent := by
    rw [Nat.div_lt_iff_lt_mul pos]
    nlinarith
  by_cases reached : 2 ^ 52 * 2 ^ exponent ≤ n / d
  · -- The quotient has the size of the double.
    refine ofUnits_fits negative ?_ rounds small bounded
    have size : (n / d).log2 = 52 + exponent := by
      refine log2_eq ((Nat.pow_add ..).trans_le reached) (short.trans_le ?_)
      rw [show 52 + exponent + 1 = 53 + exponent by omega, Nat.pow_add]
      exact Nat.mul_le_mul_right _ small
    omega
  have smaller : n < 2 ^ 52 * (d * 2 ^ exponent) := by
    rw [Nat.not_le, Nat.div_lt_iff_lt_mul pos, Nat.mul_assoc,
      Nat.mul_comm (2 ^ exponent)] at reached
    exact reached
  cases exponent with
  | zero =>
      refine ofUnits_fits negative ?_ rounds small bounded
      have size : (n / d).log2 ≤ 52 := log2_le (by omega)
      omega
  | succ e =>
      obtain rfl := mantissa_eq (by omega) above smaller
      have close := nearer rfl (Nat.succ_pos e)
      have double : d * 2 ^ (e + 1) = 2 * (d * 2 ^ e) := by
        rw [Nat.pow_succ]
        ring
      rw [double] at close smaller
      exact ofUnits_power pos negative (by omega) (by omega) bounded

end DocMapper.Double
