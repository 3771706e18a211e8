import DocMapper.Proofs.Value.Json

/-!
# Parts of values

A value holds the items of an array and what stands under the keys of a map or in the fields
of an instance.  What holds of a value and of all that it holds, at any depth, holds
everywhere in it.
-/

namespace DocMapper

namespace Value

def array? : Value → Option (List Value)
  | .list items | .tuple items => some items
  | _ => none

def named? : Value → Option Entries
  | .map entries | .readOnly entries => some entries
  | v => v.fields?.map fun fields => fields.map fun f => (.str f.1, f.2)

inductive Within : Value → Value → Prop where
  | self (v : Value) : Within v v
  | item {part item v : Value} {items : List Value} (array : v.array? = some items)
      (mem : item ∈ items) (deeper : Within part item) : Within part v
  | entry {part v : Value} {entries : Entries} {e : Value × Value}
      (named : v.named? = some entries) (mem : e ∈ entries) (deeper : Within part e.2) :
      Within part v

def Everywhere (p : Value → Prop) (v : Value) : Prop := ∀ part, part.Within v → p part

section Everywhere

variable {p : Value → Prop} {v : Value}

theorem Everywhere.here (h : v.Everywhere p) : p v := h v (.self v)

theorem Everywhere.item {items : List Value} (h : v.Everywhere p) (array : v.array? = some items) :
    ∀ item ∈ items, item.Everywhere p :=
  fun _ mem part deeper => h part (.item array mem deeper)

theorem Everywhere.entry {entries : Entries} (h : v.Everywhere p)
    (named : v.named? = some entries) : ∀ e ∈ entries, e.2.Everywhere p :=
  fun _ mem part deeper => h part (.entry named mem deeper)

theorem everywhere_iff :
    v.Everywhere p ↔ p v ∧ (∀ items ∈ v.array?, ∀ item ∈ items, item.Everywhere p) ∧
      ∀ entries ∈ v.named?, ∀ e ∈ entries, e.2.Everywhere p := by
  refine ⟨fun h => ⟨h.here, fun _ => h.item, fun _ => h.entry⟩, ?_⟩
  rintro ⟨here, items, entries⟩ part within
  cases within with
  | self => exact here
  | item array mem deeper => exact items _ array _ mem part deeper
  | entry named mem deeper => exact entries _ named _ mem part deeper

theorem everywhere_leaf (array : v.array? = none) (named : v.named? = none) :
    v.Everywhere p ↔ p v := by
  rw [everywhere_iff, array, named]
  simp

theorem everywhere_array {items : List Value} (array : v.array? = some items)
    (named : v.named? = none) :
    v.Everywhere p ↔ p v ∧ ∀ item ∈ items, item.Everywhere p := by
  rw [everywhere_iff, array, named]
  simp

theorem everywhere_named {entries : Entries} (array : v.array? = none)
    (named : v.named? = some entries) :
    v.Everywhere p ↔ p v ∧ ∀ e ∈ entries, e.2.Everywhere p := by
  rw [everywhere_iff, array, named]
  simp

theorem everywhere_null : null.Everywhere p ↔ p .null := everywhere_leaf rfl rfl

theorem everywhere_int {n : Int} : (int n).Everywhere p ↔ p (.int n) := everywhere_leaf rfl rfl

theorem everywhere_str {s : String} : (str s).Everywhere p ↔ p (.str s) := everywhere_leaf rfl rfl

theorem everywhere_tuple {items : List Value} :
    (tuple items).Everywhere p ↔ p (.tuple items) ∧ ∀ item ∈ items, item.Everywhere p :=
  everywhere_array rfl rfl

theorem everywhere_map {entries : Entries} :
    (map entries).Everywhere p ↔ p (.map entries) ∧ ∀ e ∈ entries, e.2.Everywhere p :=
  everywhere_named rfl rfl

theorem everywhere_readOnly {entries : Entries} :
    (readOnly entries).Everywhere p ↔ p (.readOnly entries) ∧ ∀ e ∈ entries, e.2.Everywhere p :=
  everywhere_named rfl rfl

theorem everywhere_record {type : String} {fields : List (String × Value)} :
    (record type fields).Everywhere p ↔
      p (.record type fields) ∧ ∀ f ∈ fields, f.2.Everywhere p := by
  rw [everywhere_named rfl rfl, List.forall_mem_map]

end Everywhere

theorem parts_induction {motive : Value → Prop}
    (array : ∀ v items, v.array? = some items → (∀ item ∈ items, motive item) → motive v)
    (named : ∀ v entries, v.named? = some entries → (∀ e ∈ entries, motive e.2) → motive v)
    (leaf : ∀ v, v.array? = none → v.named? = none → motive v) : ∀ v, motive v
  | .list items => array _ items rfl fun v _ => parts_induction array named leaf v
  | .tuple items => array _ items rfl fun v _ => parts_induction array named leaf v
  | .map entries => named _ entries rfl fun e mem =>
      have := sizeOf_lt_of_mem_entries mem
      parts_induction array named leaf e.2
  | .readOnly entries => named _ entries rfl fun e mem =>
      have := sizeOf_lt_of_mem_entries mem
      parts_induction array named leaf e.2
  | .record type fields => by
      refine named _ _ rfl fun e mem => ?_
      obtain ⟨f, given, rfl⟩ := List.mem_map.1 mem
      have smaller : sizeOf f.2 < sizeOf fields := by
        have := List.sizeOf_lt_of_mem given
        obtain ⟨name, value⟩ := f
        simp only [Prod.mk.sizeOf_spec] at this ⊢
        omega
      exact parts_induction array named leaf f.2
  | .eq view value | .atLeast view value | .atMost view value => by
      refine named _ _ rfl (List.forall_mem_cons.2 ⟨?_, List.forall_mem_singleton.2 ?_⟩)
      · exact parts_induction array named leaf view
      · exact parts_induction array named leaf value
  | .isIn view values => by
      refine named _ _ rfl (List.forall_mem_cons.2 ⟨?_, List.forall_mem_singleton.2 ?_⟩)
      · exact parts_induction array named leaf view
      · exact array _ values rfl fun v _ => parts_induction array named leaf v
  | .compare view op value => by
      refine named _ _ rfl
        (List.forall_mem_cons.2 ⟨?_, List.forall_mem_cons.2 ⟨?_, List.forall_mem_singleton.2 ?_⟩⟩)
      · exact parts_induction array named leaf view
      · exact parts_induction array named leaf op
      · exact parts_induction array named leaf value
  | .all parts => named _ _ rfl (List.forall_mem_singleton.2
      (array _ parts rfl fun v _ => parts_induction array named leaf v))
  | .null | .bool _ | .int _ | .float _ | .str _ | .bytes _ | .recordType _ | .viewRef _ =>
      leaf _ rfl rfl

end Value

end DocMapper
