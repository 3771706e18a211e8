import DocMapper.Proofs.Number.Digits
import DocMapper.Store.Revision

/-!
# Texts of revisions

The text of a revision is a generation and a token with a dash between.  Both can be
read back from it, so different revisions have different texts.
-/

namespace DocMapper.Revision

/-- The revision that a text gives: all up to the first dash is the generation. -/
def ofText? (text : String) : Option Revision :=
  let digits := text.toList.takeWhile (· != '-')
  match text.toList.dropWhile (· != '-') with
  | '-' :: token =>
      if digits ≠ [] ∧ digits.all Char.isDigit then
        some ⟨Digits.value digits, String.ofList token⟩
      else none
  | _ => none

theorem text_toList (revision : Revision) :
    revision.text.toList =
      Nat.toDigits 10 revision.generation ++ '-' :: revision.token.toList := by
  simp [text, String.toList_append]

theorem ofText?_text (revision : Revision) : ofText? revision.text = some revision := by
  have noDash : ∀ c ∈ Nat.toDigits 10 revision.generation, (c != '-') = true := by
    intro c mem
    have digit := Digits.isDigit_of_mem_toDigits mem
    rw [bne_iff_ne]
    rintro rfl
    cases digit
  have digits : ∀ c ∈ Nat.toDigits 10 revision.generation, c.isDigit = true :=
    fun c mem => Digits.isDigit_of_mem_toDigits mem
  have all : (Nat.toDigits 10 revision.generation).all Char.isDigit = true :=
    List.all_eq_true.2 digits
  rw [ofText?, text_toList, List.takeWhile_append_of_pos noDash,
    List.dropWhile_append_of_pos noDash]
  simp [all, Digits.value_toDigits]

theorem text_injective {a b : Revision} (h : a.text = b.text) : a = b := by
  have read := congrArg ofText? h
  rw [ofText?_text, ofText?_text] at read
  exact Option.some.inj read

end DocMapper.Revision
