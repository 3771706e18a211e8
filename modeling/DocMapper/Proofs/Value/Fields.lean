import DocMapper.Proofs.Value.Json

/-!
# Fields of documents

Records and documents are tables under different texts.  Writing under a text keeps them
so, changes what that text finds, and leaves all other entries where they are.
-/

namespace DocMapper

theorem Value.eq_of_sameKey_texts {a b : Value} (ha : a.isText = true) (hb : b.isText = true)
    (h : a.sameKey b = true) : a = b := by
  obtain ⟨s, rfl⟩ := isText_iff.1 ha
  obtain ⟨t, rfl⟩ := isText_iff.1 hb
  rw [sameKey_str, beq_iff_eq] at h
  rw [h]

namespace Keyed

open Value

variable {α β : Type}

theorem find?_set_self (table : Keyed α) {key : Value} (value : α)
    (self : key.sameKey key = true) : (table.set key value).find? key = some value := by
  induction table with
  | nil => rw [set, find?_cons, if_pos self]
  | cons entry rest ih =>
      obtain ⟨k, v⟩ := entry
      unfold set
      by_cases same : k.sameKey key = true
      · rw [if_pos same, find?_cons, if_pos same]
      · rw [if_neg same, find?_cons, if_neg same, ih]

theorem mem_set_of_apart {table : Keyed α} {key : Value} {value : α} {e : Value × α}
    (self : key.sameKey key = true) (apart : e.1.sameKey key = false) :
    e ∈ table.set key value ↔ e ∈ table := by
  have other : ∀ (k : Value) (v : α), k.sameKey key = true → e ≠ (k, v) := by
    rintro k v same rfl
    rw [same] at apart
    cases apart
  induction table with
  | nil =>
      rw [set, List.mem_singleton]
      exact iff_of_false (other key value self) List.not_mem_nil
  | cons entry rest ih =>
      obtain ⟨k, v⟩ := entry
      unfold set
      by_cases same : k.sameKey key = true
      · rw [if_pos same, List.mem_cons, List.mem_cons, or_iff_right (other k value same),
          or_iff_right (other k v same)]
      · rw [if_neg same, List.mem_cons, List.mem_cons]
        exact or_congr_right ih

theorem find?_set_nameless (table : Keyed α) (name : String) (value : α) {key : Value}
    (nameless : ∀ s, key.referent ≠ .str s) :
    (table.set (.str name) value).find? key = table.find? key := by
  have apart : ∀ k : Value, k.sameKey (.str name) = true → ¬ k.sameKey key = true :=
    fun k named same =>
      nameless name ((referent_eq_text_iff same name).1 ((sameKey_text k name).1 named))
  induction table with
  | nil => rw [set, find?_cons, if_neg (apart _ (sameKey_self rfl))]
  | cons entry rest ih =>
      obtain ⟨k, v⟩ := entry
      unfold set
      by_cases named : k.sameKey (.str name) = true
      · rw [if_pos named, find?_cons, find?_cons, if_neg (apart k named), if_neg (apart k named)]
      · rw [if_neg named, find?_cons, find?_cons, ih]

structure ByText (table : Keyed α) : Prop where
  texts : ∀ e ∈ table, e.1.isText = true
  distinct : table.Distinct

namespace ByText

variable {table : Keyed α}

theorem set (h : table.ByText) {name : Value} (value : α) (text : name.isText = true) :
    (table.set name value).ByText := by
  refine ⟨?_, h.distinct.set name value⟩
  rintro ⟨k, v⟩ mem
  rcases mem_set mem with mem | ⟨-, rfl | ⟨-, old, mem⟩⟩
  · exact h.texts _ mem
  · exact text
  · exact h.texts (k, old) mem

theorem erase (h : table.ByText) (key : Value) : (table.erase key).ByText :=
  ⟨fun e mem => h.texts e (List.mem_of_mem_filter mem), h.distinct.erase key⟩

theorem map (h : table.ByText) (f : α → β) :
    Keyed.ByText (table.map fun e => (e.1, f e.2)) := by
  refine ⟨?_, List.pairwise_map.2 h.distinct⟩
  rintro e mem
  obtain ⟨e', given, rfl⟩ := List.mem_map.1 mem
  exact h.texts e' given

theorem mem_set_iff (h : table.ByText) {name : Value} {value : α} (text : name.isText = true)
    {e : Value × α} :
    e ∈ table.set name value ↔ e = (name, value) ∨ e ∈ table ∧ e.1 ≠ name := by
  obtain ⟨s, rfl⟩ := isText_iff.1 text
  have self : (Value.str s).sameKey (.str s) = true := sameKey_self rfl
  by_cases named : e.1 = .str s
  · obtain ⟨k, v⟩ := e
    obtain rfl : k = .str s := named
    have found := find?_set_self table value self
    refine ⟨fun mem => .inl ?_, ?_⟩
    · have given := (h.set value text).distinct.find?_of_mem mem
      rw [Option.some.inj (given.symm.trans found)]
    · rintro (same | ⟨-, other⟩)
      · cases same
        obtain ⟨k, mem, same⟩ := mem_of_find? found
        obtain rfl := eq_of_sameKey_texts ((h.set value text).texts _ mem) text same
        exact mem
      · exact absurd rfl other
  · have differs : e ≠ (.str s, value) := fun same => named (congrArg Prod.fst same)
    rw [or_iff_right differs, and_iff_left named]
    by_cases apart : e.1.sameKey (.str s) = true
    · have absent : ∀ {t : Keyed α}, t.ByText → e ∉ t := fun byText mem =>
        named (eq_of_sameKey_texts (byText.texts e mem) text apart)
      exact iff_of_false (absent (h.set value text)) (absent h)
    · exact mem_set_of_apart self (Bool.eq_false_iff.2 apart)

theorem mem_keys_set (h : table.ByText) {name k : Value} {value : α}
    (text : name.isText = true) :
    k ∈ (Keyed.set table name value).map Prod.fst ↔ k = name ∨ k ∈ table.map Prod.fst := by
  constructor
  · intro given
    obtain ⟨e, mem, rfl⟩ := List.mem_map.1 given
    rcases (h.mem_set_iff text).1 mem with same | ⟨mem, -⟩
    · exact .inl (congrArg Prod.fst same)
    · exact .inr (List.mem_map_of_mem mem)
  · intro given
    by_cases same : k = name
    · subst same
      exact List.mem_map_of_mem ((h.mem_set_iff text).2 (.inl rfl))
    · obtain ⟨e, mem, rfl⟩ := List.mem_map.1 (given.resolve_left same)
      exact List.mem_map_of_mem ((h.mem_set_iff text).2 (.inr ⟨mem, same⟩))

end ByText

theorem find?_map (table : Keyed α) (f : α → β) (key : Value) :
    Keyed.find? (table.map fun e => (e.1, f e.2)) key = (table.find? key).map f := by
  induction table with
  | nil => rfl
  | cons entry rest ih =>
      obtain ⟨k, v⟩ := entry
      rw [List.map_cons, find?_cons, find?_cons, ih]
      split <;> rfl

end Keyed

end DocMapper
