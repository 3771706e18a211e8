import DocMapper.Number.Digits
import Mathlib.Algebra.Ring.Nat
import Mathlib.Data.List.Basic
import Mathlib.Data.List.TakeDrop
import Mathlib.Data.List.TakeWhile

/-!
# Runs of digits

The digits of a number read back as the number, with zeros before them too, and each zero
after them makes it ten times as large.
-/

namespace DocMapper.Digits

theorem value_eq (ds : List Char) : value ds = Nat.ofDigitChars 10 ds 0 :=
  Nat.ofDigitChars_eq_foldl.symm

theorem value_toDigits (n : Nat) : value (Nat.toDigits 10 n) = n := by
  rw [value_eq, Nat.ofDigitChars_ten_toDigits]

theorem value_zeros_after (ds : List Char) (k : Nat) :
    value (ds ++ List.replicate k '0') = value ds * 10 ^ k := by
  rw [value_eq, value_eq, Nat.ofDigitChars_append, Nat.ofDigitChars_replicate_zero, Nat.mul_comm]

theorem value_zeros_before (k : Nat) (ds : List Char) :
    value (List.replicate k '0' ++ ds) = value ds := by
  rw [value_eq, value_eq, Nat.ofDigitChars_append, Nat.ofDigitChars_replicate_zero, Nat.mul_zero]

theorem signed_natAbs (i : Int) : signed (decide (i < 0)) i.natAbs = i := by
  unfold signed
  by_cases negative : i < 0
  · rw [if_pos (decide_eq_true negative), Int.ofNat_natAbs_of_nonpos (by omega), Int.neg_neg]
  · rw [if_neg (by simpa using negative), Int.natAbs_of_nonneg (by omega)]

theorem toList_toString (n : Nat) : (toString n).toList = Nat.toDigits 10 n := by
  rw [Nat.toString_eq_ofList_toDigits, String.toList_ofList]

theorem isDigit_of_mem_toDigits {n : Nat} {c : Char} (h : c ∈ Nat.toDigits 10 n) :
    c.isDigit = true :=
  Nat.isDigit_of_mem_toDigits (by omega) (by omega) h

theorem digitChar_ne_zero : ∀ n < 10, 0 < n → n.digitChar ≠ '0' := by decide

theorem head?_toDigits {n : Nat} (pos : 0 < n) : (Nat.toDigits 10 n).head? ≠ some '0' := by
  induction n using Nat.strongRecOn with
  | ind n ih =>
      rw [Nat.toDigits_eq_if (by decide)]
      split
      next small => exact fun zero => digitChar_ne_zero n small pos (Option.some.inj zero)
      next large =>
        rw [List.head?_append_of_ne_nil _ Nat.toDigits_ne_nil]
        exact ih (n / 10) (by omega) (by omega)

theorem span_eq_iff {α : Type} {p : α → Bool} {xs run rest : List α} :
    xs.span p = (run, rest) ↔
      run ++ rest = xs ∧ (∀ x ∈ run, p x = true) ∧ ∀ x ∈ rest.head?, p x = false := by
  rw [List.span_eq_takeWhile_dropWhile, Prod.mk.injEq]
  constructor
  · rintro ⟨rfl, rfl⟩
    refine ⟨List.takeWhile_append_dropWhile, fun x => List.mem_takeWhile_imp, fun x first => ?_⟩
    have stop := List.head?_dropWhile_not p xs
    rw [first] at stop
    exact stop
  · rintro ⟨rfl, passes, stops⟩
    rw [List.takeWhile_append_of_pos passes, List.dropWhile_append_of_pos passes]
    cases rest with
    | nil => simp
    | cons x rest =>
        have stop : ¬ p x = true := by simp [stops x rfl]
        rw [List.takeWhile_cons_of_neg stop, List.dropWhile_cons_of_neg stop, List.append_nil]
        exact ⟨rfl, rfl⟩

theorem span_append {ds rest : List Char} (digits : ∀ c ∈ ds, c.isDigit = true)
    (stops : ∀ c ∈ rest.head?, c.isDigit = false) : span (ds ++ rest) = (ds, rest) :=
  span_eq_iff.2 ⟨rfl, digits, stops⟩

end DocMapper.Digits
