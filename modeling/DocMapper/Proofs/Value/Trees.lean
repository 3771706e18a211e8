import DocMapper.Proofs.Json.RoundTrip
import DocMapper.Proofs.Value.Order
import Mathlib.Data.String.Basic

/-!
# Values and their JSON trees

A plain value has a tree, and values with one tree are the same up to the order in which
their maps list their keys.
-/

namespace DocMapper.Value

mutual

/-- A JSON value whose sequences are lists and whose maps can be changed. -/
def Plain : Value → Prop
  | .null | .bool _ | .int _ | .str _ => True
  | .float x => x.WellFormed
  | .list items => AllPlain items
  | .map entries => PlainEntries entries
  | _ => False
termination_by structural x => x

def AllPlain : List Value → Prop
  | [] => True
  | v :: vs => Plain v ∧ AllPlain vs
termination_by structural x => x

def PlainEntries : List (Value × Value) → Prop
  | [] => True
  | (k, v) :: rest =>
      (k.isText = true ∧ ∀ e ∈ rest, k.sameKey e.1 = false) ∧ Plain v ∧ PlainEntries rest
termination_by structural x => x

end

theorem plain_list {items : List Value} : (list items).Plain ↔ ∀ v ∈ items, v.Plain := by
  rw [Plain]
  induction items with
  | nil => simp [AllPlain]
  | cons v vs ih => simp [AllPlain, ih]

theorem plain_map {entries : Entries} :
    (map entries).Plain ↔ (∀ e ∈ entries, e.1.isText = true ∧ e.2.Plain) ∧ entries.Distinct := by
  rw [Plain]
  induction entries with
  | nil => simp [PlainEntries, Keyed.Distinct]
  | cons e rest ih =>
      obtain ⟨k, v⟩ := e
      simp only [PlainEntries, ih, Keyed.Distinct, List.pairwise_cons, List.forall_mem_cons]
      tauto

/-- The same value, but for the order in which maps list their keys. -/
inductive Shuffled : Value → Value → Prop
  | refl (v : Value) : Shuffled v v
  | list {xs ys : List Value} (items : List.Forall₂ Shuffled xs ys) : Shuffled (.list xs) (.list ys)
  | map {xs ys : Entries}
      (entries : ∀ s : String, Option.Rel Shuffled (xs.find? (.str s)) (ys.find? (.str s))) :
      Shuffled (.map xs) (.map ys)

theorem shuffled_list {xs ys : List Value} (h : Shuffled (.list xs) (.list ys)) :
    List.Forall₂ Shuffled xs ys := by
  cases h with
  | refl => exact List.forall₂_same.2 fun v _ => .refl v
  | list items => exact items

theorem shuffled_map {xs ys : Entries} (h : Shuffled (.map xs) (.map ys)) (s : String) :
    Option.Rel Shuffled (xs.find? (.str s)) (ys.find? (.str s)) := by
  cases h with
  | refl =>
      cases xs.find? (.str s) with
      | none => exact .none
      | some v => exact .some (.refl v)
  | map entries => exact entries s

theorem eq_of_shuffled_text {a b : Value} (text : a.isText = true) (h : a.Shuffled b) : a = b := by
  cases h with
  | refl => rfl
  | _ => cases text

theorem toJsons?_eq_some {sortKeys : Bool} {items : List Value} {js : List Json} :
    toJsons? sortKeys items = some js ↔
      List.Forall₂ (fun v j => v.toJson? sortKeys = some j) items js := by
  induction items generalizing js with
  | nil => simp [toJsons?, List.forall₂_nil_left_iff, eq_comm]
  | cons v vs ih =>
      rw [toJsons?, List.forall₂_cons_left_iff]
      simp only [Option.bind_eq_bind, Option.bind_eq_some_iff, Option.pure_def, Option.some.injEq,
        ih]
      constructor
      · rintro ⟨j, first, rest, others, rfl⟩
        exact ⟨j, rest, first, others, rfl⟩
      · rintro ⟨j, rest, first, others, rfl⟩
        exact ⟨j, first, rest, others, rfl⟩

theorem toMembers?_eq_some {sortKeys : Bool} {entries : Entries} {ms : Keyed Json} :
    toMembers? sortKeys entries = some ms ↔
      List.Forall₂ (fun e m => m.1 = e.1 ∧ e.2.toJson? sortKeys = some m.2) entries ms := by
  induction entries generalizing ms with
  | nil => simp [toMembers?, List.forall₂_nil_left_iff, eq_comm]
  | cons e rest ih =>
      obtain ⟨k, v⟩ := e
      rw [toMembers?, List.forall₂_cons_left_iff]
      simp only [Option.bind_eq_bind, Option.bind_eq_some_iff, Option.pure_def, Option.some.injEq,
        ih]
      constructor
      · rintro ⟨j, first, more, others, rfl⟩
        exact ⟨(k, j), more, ⟨rfl, first⟩, others, rfl⟩
      · rintro ⟨⟨k', j⟩, more, ⟨rfl, first⟩, others, rfl⟩
        exact ⟨j, first, more, others, rfl⟩

theorem find?_named {α : Type} (named : List (String × α)) (s : String) :
    Keyed.find? (named.map fun m => (.str m.1, m.2)) (.str s) = named.lookup s := by
  induction named with
  | nil => rfl
  | cons m rest ih =>
      rw [List.map_cons, Keyed.find?_cons, ih, sameKey_str, List.lookup_cons, BEq.comm]
      cases s == m.1 <;> rfl

theorem exists_forall₂ {α β : Type} {R : α → β → Prop} {xs : List α}
    (each : ∀ x ∈ xs, ∃ y, R x y) : ∃ ys, List.Forall₂ R xs ys := by
  induction xs with
  | nil => exact ⟨[], .nil⟩
  | cons x xs ih =>
      obtain ⟨⟨y, first⟩, others⟩ := List.forall_mem_cons.1 each
      obtain ⟨ys, rest⟩ := ih others
      exact ⟨y :: ys, .cons first rest⟩

theorem exists_of_mem_right {α β : Type} {R : α → β → Prop} {xs : List α} {ys : List β}
    (h : List.Forall₂ R xs ys) {y : β} (mem : y ∈ ys) : ∃ x ∈ xs, R x y := by
  obtain ⟨i, bound, rfl⟩ := List.getElem_of_mem mem
  have bound' : i < xs.length := h.length_eq ▸ bound
  exact ⟨xs[i], List.getElem_mem bound', h.get bound' bound⟩

theorem find?_rel {α β : Type} {R : α → β → Prop} {xs : Keyed α} {ys : Keyed β}
    (h : List.Forall₂ (fun x y => y.1 = x.1 ∧ R x.2 y.2) xs ys) (key : Value) :
    Option.Rel R (xs.find? key) (ys.find? key) := by
  induction h with
  | nil => exact .none
  | @cons x y xs ys first _ ih =>
      obtain ⟨k, v⟩ := x
      obtain ⟨_, w⟩ := y
      obtain ⟨rfl, related⟩ := first
      rw [Keyed.find?_cons, Keyed.find?_cons]
      split
      · exact .some related
      · exact ih

/-! ## The tree of a plain value -/

variable {entries : Entries} (texts : ∀ e ∈ entries, e.1.isText = true)
  (distinct : entries.Distinct)

include texts distinct

omit texts distinct

end DocMapper.Value
