import DocMapper.Proofs.Outcome
import DocMapper.Proofs.Value.Order
import DocMapper.Record.Validate
import Mathlib.Algebra.Order.Field.Rat
import Mathlib.Data.Prod.Lex
import Mathlib.Data.String.Basic
import Mathlib.Tactic.NormNum

/-!
# Suggestions

Names are suggested by their similarity to an unknown one, and equally similar ones by their
own order.  Hence it does not matter in which order the known names are listed.
-/

namespace DocMapper

namespace Text

def ratio (s : Nat × Nat) : ℚ := 2 * (s.1 / s.2)

section Ratio

variable {s t : Nat × Nat} (hs : 0 < s.2) (ht : 0 < t.2)

include hs

theorem isClose_eq : isClose s = decide (3 / 5 ≤ ratio s) := by
  have close : 3 / 5 ≤ ratio s ↔ 6 * s.2 ≤ 10 * (2 * s.1) := by
    rw [ratio, ← mul_div_assoc, div_le_div_iff₀ (by norm_num) (Nat.cast_pos.2 hs)]
    norm_cast
    omega
  exact decide_eq_decide.2 close.symm

include ht

theorem moreSimilar_eq : moreSimilar s t = decide (ratio t < ratio s) := by
  have less : ratio t < ratio s ↔ t.1 * s.2 < s.1 * t.2 := by
    rw [ratio, ratio, mul_lt_mul_iff_right₀ two_pos,
      div_lt_div_iff₀ (Nat.cast_pos.2 ht) (Nat.cast_pos.2 hs)]
    exact_mod_cast Iff.rfl
  exact decide_eq_decide.2 less.symm

theorem equallySimilar_eq : equallySimilar s t = decide (ratio t = ratio s) := by
  have equal : ratio t = ratio s ↔ t.1 * s.2 = s.1 * t.2 := by
    rw [ratio, ratio, mul_right_inj' two_ne_zero,
      div_eq_div_iff (Nat.cast_pos.2 ht).ne' (Nat.cast_pos.2 hs).ne']
    exact_mod_cast Iff.rfl
  rw [equallySimilar, Bool.eq_iff_iff, decide_eq_true_iff, equal, beq_iff_eq, eq_comm]

end Ratio

section Closest

variable {α β ν : Type} [BEq α] [LinearOrder β]

/-- The place of a scored name: first the most similar names, and then the greatest. -/
def rank (place : ν → β) (scored : ν × (Nat × Nat)) : (ℚ ×ₗ β)ᵒᵈ :=
  OrderDual.toDual (toLex (ratio scored.2, place scored.1))

variable {place : ν → β} {greater : ν → ν → Bool}

theorem rank_le_iff {a b : ν × (Nat × Nat)} : rank place a ≤ rank place b ↔
    ratio b.2 < ratio a.2 ∨ ratio b.2 = ratio a.2 ∧ place b.1 ≤ place a.1 :=
  Prod.Lex.toLex_le_toLex

theorem before_eq {a b : ν × (Nat × Nat)} (ha : 0 < a.2.2) (hb : 0 < b.2.2)
    (decided : greater b.1 a.1 = decide (place a.1 < place b.1)) :
    (moreSimilar a.2 b.2 || (equallySimilar a.2 b.2 && !greater b.1 a.1)) =
      decide (rank place a ≤ rank place b) := by
  rw [moreSimilar_eq ha hb, equallySimilar_eq ha hb, decided, Bool.eq_iff_iff]
  simp [rank_le_iff]

/-- The names are told apart by an order, and none of them is empty if the word is: the ratio
of two empty texts would be no number. -/
structure Rankable (place : ν → β) (greater : ν → ν → Bool) (word : List α)
    (candidates : List (ν × List α)) : Prop where
  decided : ∀ a ∈ candidates, ∀ b ∈ candidates, greater a.1 b.1 = decide (place b.1 < place a.1)
  apart : ∀ a ∈ candidates, ∀ b ∈ candidates, place a.1 = place b.1 → a = b
  filled : ∀ c ∈ candidates, 0 < c.2.length + word.length

def scored (word : List α) (candidates : List (ν × List α)) : List (ν × (Nat × Nat)) :=
  (candidates.map fun c => (c.1, similarity c.2 word)).filter fun c => isClose c.2

section Scored

variable {word : List α} {candidates candidates' : List (ν × List α)}

theorem mem_scored {a : ν × (Nat × Nat)} (mem : a ∈ scored word candidates) :
    ∃ c ∈ candidates, (c.1, similarity c.2 word) = a :=
  List.mem_map.1 (List.mem_of_mem_filter mem)

variable (rankable : Rankable place greater word candidates) (limit : Nat)

include rankable

theorem scored_decided : ∀ a ∈ scored word candidates, ∀ b ∈ scored word candidates,
    (moreSimilar a.2 b.2 || (equallySimilar a.2 b.2 && !greater b.1 a.1)) =
      decide (rank place a ≤ rank place b) := by
  intro a ha b hb
  obtain ⟨c, hc, rfl⟩ := mem_scored ha
  obtain ⟨d, hd, rfl⟩ := mem_scored hb
  exact before_eq (rankable.filled c hc) (rankable.filled d hd) (rankable.decided d hd c hc)

/-- The closest candidates are the first of those that match to three fifths, ranked. -/
theorem closest_ranked : ∃ ranked : List (ν × (Nat × Nat)),
    ranked.Perm ((candidates.map fun c => (c.1, similarity c.2 word)).filter
      fun c => 3 / 5 ≤ ratio c.2) ∧
    ranked.Pairwise (fun a b => rank place a ≤ rank place b) ∧
    closest limit greater word candidates = (ranked.take limit).map Prod.fst := by
  refine ⟨_, ?_, mergeSort_ascending (scored_decided rankable), rfl⟩
  refine (List.mergeSort_perm ..).trans (.of_eq (List.filter_congr fun a mem => ?_))
  obtain ⟨c, hc, rfl⟩ := List.mem_map.1 mem
  exact isClose_eq (rankable.filled c hc)

theorem closest_perm (perm : candidates.Perm candidates') :
    closest limit greater word candidates = closest limit greater word candidates' := by
  refine congrArg (fun ranked : List (ν × (Nat × Nat)) => (ranked.take limit).map Prod.fst)
    (mergeSort_eq_of_perm (scored_decided rankable) ?_ ((perm.map _).filter _))
  intro a ha b hb same
  obtain ⟨c, hc, rfl⟩ := mem_scored ha
  obtain ⟨d, hd, rfl⟩ := mem_scored hb
  have names : place c.1 = place d.1 := (Prod.ext_iff.1 same).2
  rw [rankable.apart c hc d hd names]

end Scored

end Closest

end Text

open Value

def spelled (name : Value) : List Letter := (name.items?.getD []).map Letter.mk

theorem letters_text {name : Value} (text : name.isText = true) :
    letters name = .ok (spelled name) := by
  obtain ⟨s, rfl⟩ := isText_iff.1 text
  rfl

theorem length_spelled (s : String) : (spelled (.str s)).length = s.length := by
  simp [spelled, items?, String.length_toList]

section Known

variable {name : Value} {known known' : List Value} (text : name.isText = true)
  (texts : ∀ k ∈ known, k.isText = true)

include text texts

theorem suggestionsFor_texts : suggestionsFor name known = .ok (Text.closest 3
    (fun a b => b.less? a == some true) (spelled name) (known.map fun k => (k, spelled k))) := by
  have candidates : (known.mapM fun k => do return (k, ← letters k) : Outcome _) =
      .ok (known.map fun k => (k, spelled k)) := by
    refine Outcome.mapM_ok (List.forall₂_map_right_iff.2 (List.forall₂_same.2 fun k mem => ?_))
    rw [letters_text (texts k mem)]
    rfl
  rw [suggestionsFor, letters_text text, candidates]
  rfl

theorem rankable_texts (unknown : name ∉ known) :
    Text.Rankable Value.text (fun a b => b.less? a == some true) (spelled name)
      (known.map fun k => (k, spelled k)) where
  decided := by
    simp only [List.forall_mem_map]
    intro a ha b hb
    rw [less?_text (texts b hb) (texts a ha), Option.some_beq_some, beq_true]
  apart := by
    simp only [List.forall_mem_map]
    intro a ha b hb same
    rw [eq_of_text (texts a ha) (texts b hb) same]
  filled := by
    simp only [List.forall_mem_map]
    intro k mem
    obtain ⟨s, rfl⟩ := isText_iff.1 text
    obtain ⟨t, rfl⟩ := isText_iff.1 (texts k mem)
    rw [length_spelled, length_spelled]
    refine Nat.pos_of_ne_zero fun empty => unknown ?_
    obtain ⟨ht, hs⟩ := Nat.add_eq_zero_iff.1 empty
    rwa [String.length_eq_zero_iff.1 hs, ← String.length_eq_zero_iff.1 ht]

theorem suggestionsFor_perm (unknown : name ∉ known) (perm : known.Perm known') :
    ∃ names, suggestionsFor name known = .ok names ∧ suggestionsFor name known' = .ok names := by
  refine ⟨_, suggestionsFor_texts text texts, ?_⟩
  rw [suggestionsFor_texts text fun k mem => texts k (perm.mem_iff.2 mem),
    Text.closest_perm (rankable_texts text texts unknown) 3 (perm.map _)]

end Known

end DocMapper
