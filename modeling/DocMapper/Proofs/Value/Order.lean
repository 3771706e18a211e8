import DocMapper.Proofs.Value.Json
import DocMapper.Value.Display
import DocMapper.Value.Order
import Mathlib.Order.Lattice

/-!
# Sorting

Where the comparison decides a linear order on the items, sorting succeeds and puts them into
this order, whatever the order in which they came.
-/

namespace DocMapper

section Ranking

variable {α β : Type} [LinearOrder β] {le : α → α → Bool} {place : α → β} {xs ys : List α}
  (decided : ∀ a ∈ xs, ∀ b ∈ xs, le a b = decide (place a ≤ place b))

include decided

theorem mergeSort_ascending : (xs.mergeSort le).Pairwise fun a b => place a ≤ place b := by
  have mapped := List.map_mergeSort (f := id) (l := xs) (r := le)
    (s := fun a b => decide (place a ≤ place b)) decided
  rw [List.map_id, List.map_id] at mapped
  rw [mapped]
  refine (List.pairwise_mergeSort (fun a b c hab hbc => ?_) (fun a b => ?_) xs).imp
    of_decide_eq_true
  · exact decide_eq_true ((of_decide_eq_true hab).trans (of_decide_eq_true hbc))
  · simpa using le_total (place a) (place b)

theorem mergeSort_eq_of_perm (apart : ∀ a ∈ xs, ∀ b ∈ xs, place a = place b → a = b)
    (perm : xs.Perm ys) : xs.mergeSort le = ys.mergeSort le := by
  have decided' : ∀ a ∈ ys, ∀ b ∈ ys, le a b = decide (place a ≤ place b) :=
    fun a ha b hb => decided a (perm.mem_iff.2 ha) b (perm.mem_iff.2 hb)
  have sorted : (xs.mergeSort le).Perm xs := List.mergeSort_perm xs le
  have sorted' : (ys.mergeSort le).Perm ys := List.mergeSort_perm ys le
  refine List.Perm.eq_of_pairwise (fun a b ha hb hab hba => ?_) (mergeSort_ascending decided)
    (mergeSort_ascending decided') (sorted.trans (perm.trans sorted'.symm))
  exact apart a (sorted.mem_iff.1 ha) b (perm.mem_iff.2 (sorted'.mem_iff.1 hb))
    (le_antisymm hab hba)

end Ranking

section Sorting

variable {α β : Type} [LinearOrder β] {less? : α → α → Option Bool} {place : α → β} {xs : List α}
  (decided : ∀ a ∈ xs, ∀ b ∈ xs, less? a b = some (decide (place a < place b)))

include decided

theorem allComparable_of_place : allComparable less? xs = true := by
  induction xs with
  | nil => rfl
  | cons x rest ih =>
      rw [allComparable, ih fun a ha b hb => decided a (.tail _ ha) b (.tail _ hb)]
      simp only [Bool.and_true, List.all_eq_true, Bool.and_eq_true]
      intro y mem
      rw [decided x (.head _) y (.tail _ mem), decided y (.tail _ mem) x (.head _)]
      exact ⟨rfl, rfl⟩

theorem sorted?_of_place :
    ∃ ordered, sorted? less? xs = some ordered ∧ ordered.Perm xs ∧
      ordered.Pairwise fun a b => place a ≤ place b := by
  refine ⟨_, if_pos (allComparable_of_place decided), List.mergeSort_perm xs _,
    mergeSort_ascending fun a ha b hb => ?_⟩
  rw [decided b hb a ha]
  by_cases h : place b < place a <;> simp [h, not_lt.1]

end Sorting

namespace Value

theorem less?_text {a b : Value} (ha : a.isText = true) (hb : b.isText = true) :
    less? a b = some (decide (a.text < b.text)) := by
  obtain ⟨s, rfl⟩ := isText_iff.1 ha
  obtain ⟨t, rfl⟩ := isText_iff.1 hb
  rfl

theorem eq_of_text {a b : Value} (ha : a.isText = true) (hb : b.isText = true)
    (h : a.text = b.text) : a = b := by
  obtain ⟨s, rfl⟩ := isText_iff.1 ha
  obtain ⟨t, rfl⟩ := isText_iff.1 hb
  exact congrArg Value.str h

end Value

end DocMapper
