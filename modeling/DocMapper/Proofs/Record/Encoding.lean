import DocMapper.Proofs.Record.RoundTrip
import DocMapper.Proofs.Value.Fields
import DocMapper.Proofs.Value.Parts

/-!
# The normal form of encodings

An encoding holds lists, maps under texts and scalars, at any depth.  Such a value is its own
encoding, so that encoding once more changes nothing.
-/

namespace DocMapper

open Value

theorem encodeValues_map (items : List Value) : encodeValues items = items.map encodeValue := by
  induction items with
  | nil => rfl
  | cons v vs ih => rw [encodeValues, ih]; rfl

theorem encodeValue_array {v : Value} {items : List Value} (array : v.array? = some items) :
    encodeValue v = .list (items.map encodeValue) := by
  rw [← encodeValues_map]
  cases v <;> cases array <;> rfl

theorem encodeValue_leaf {v : Value} (array : v.array? = none) (named : v.named? = none) :
    encodeValue v = v := by
  cases v with
  | list | tuple => cases array
  | map | readOnly | record | eq | isIn | atLeast | atMost | compare | all => cases named
  | _ => rfl

theorem encodeValue_fields {v : Value} {fields : List (String × Value)}
    (h : v.fields? = some fields) :
    encodeValue v = .map (fields.map fun f => (.str f.1, encodeValue f.2)) := by
  cases v with
  | record type fields =>
      cases h
      rw [encodeValue, encodeNamed_map]
  | eq | isIn | atLeast | atMost | compare | all => cases h; rfl
  | _ => cases h

def encodedEach (entries : Entries) : Entries :=
  entries.map fun e => (.str e.1.text, encodeValue e.2)

theorem encodedEach_texts (entries : Entries) : ∀ e ∈ encodedEach entries, e.1.isText = true := by
  intro e mem
  obtain ⟨e, -, rfl⟩ := List.mem_map.1 mem
  rfl

theorem distinct_encodedEach {entries : Entries} (texts : ∀ e ∈ entries, e.1.isText = true)
    (distinct : entries.Distinct) : (encodedEach entries).Distinct := by
  refine List.pairwise_map.2 (distinct.imp_of_mem fun {a b} ha hb apart => ?_)
  obtain ⟨s, hs⟩ := isText_iff.1 (texts a ha)
  obtain ⟨t, ht⟩ := isText_iff.1 (texts b hb)
  rw [hs, ht] at apart ⊢
  exact apart

theorem encodeValue_named {v : Value} {entries : Entries} (named : v.named? = some entries)
    (distinct : entries.Distinct) : encodeValue v = .map (Keyed.ofPairs (encodedEach entries)) := by
  have fields (given : List (String × Value)) (h : v.fields? = some given)
      (same : given.map (fun f => (Value.str f.1, f.2)) = entries) :
      encodeValue v = .map (Keyed.ofPairs (encodedEach entries)) := by
    subst same
    have texts : ∀ e ∈ given.map (fun f => (Value.str f.1, f.2)), e.1.isText = true := by
      intro e mem
      obtain ⟨f, -, rfl⟩ := List.mem_map.1 mem
      rfl
    rw [encodeValue_fields h, (distinct_encodedEach texts distinct).ofPairs, encodedEach,
      List.map_map]
    rfl
  cases v with
  | map | readOnly =>
      cases named
      rw [encodeValue, encodeEntries_map]
      rfl
  | record | eq | isIn | atLeast | atMost | compare | all =>
      exact fields _ rfl (Option.some.inj named)
  | _ => cases named

namespace Value

/-- The keys of a map or the fields of an instance are different. -/
def KeysDiffer (v : Value) : Prop := ∀ entries ∈ v.named?, entries.Distinct

/-- No tuple, no read-only map and no instance, and a map is one under texts. -/
def IsPlainForm : Value → Prop
  | .tuple _ | .readOnly _ | .record .. | .eq .. | .isIn .. | .atLeast .. | .atMost ..
  | .compare .. | .all _ => False
  | .map entries => Keyed.ByText entries
  | _ => True

theorem allNormal_iff {items : List Value} :
    allNormal items = true ↔ ∀ v ∈ items, v.isNormal = true := by
  induction items with
  | nil => simp [allNormal]
  | cons v vs ih => simp [allNormal, ih]

theorem normalEntries_iff {entries : Entries} :
    normalEntries entries = true ↔ entries.ByText ∧ ∀ e ∈ entries, e.2.isNormal = true := by
  have each : normalEntries entries = true ↔
      entries.Distinct ∧ ∀ e ∈ entries, e.1.isText = true ∧ e.2.isNormal = true := by
    induction entries with
    | nil => simp [normalEntries, Keyed.Distinct]
    | cons e rest ih =>
        obtain ⟨k, v⟩ := e
        simp only [normalEntries, Bool.and_eq_true, ih, Keyed.Distinct, List.pairwise_cons,
          List.forall_mem_cons, List.all_eq_true, Bool.not_eq_true']
        tauto
  rw [each]
  constructor
  · rintro ⟨distinct, forms⟩
    exact ⟨⟨fun e mem => (forms e mem).1, distinct⟩, fun e mem => (forms e mem).2⟩
  · rintro ⟨byText, normal⟩
    exact ⟨byText.distinct, fun e mem => ⟨byText.texts e mem, normal e mem⟩⟩

theorem isNormal_iff {v : Value} : v.isNormal = true ↔ v.Everywhere IsPlainForm := by
  induction v using parts_induction with
  | array v items array ih =>
      cases v with
      | list =>
          cases array
          rw [everywhere_array rfl rfl, isNormal, allNormal_iff]
          exact (forall₂_congr ih).trans (iff_of_eq (true_and _).symm)
      | tuple => exact iff_of_false Bool.false_ne_true fun plain => plain.here
      | _ => cases array
  | named v entries named ih =>
      cases v with
      | map =>
          cases named
          rw [everywhere_named rfl rfl, isNormal, normalEntries_iff]
          exact and_congr_right fun _ => forall₂_congr ih
      | readOnly | record | eq | isIn | atLeast | atMost | compare | all =>
          exact iff_of_false Bool.false_ne_true fun plain => plain.here
      | _ => cases named
  | leaf v array named =>
      rw [everywhere_leaf array named]
      cases v with
      | list | tuple => cases array
      | map | readOnly | record | eq | isIn | atLeast | atMost | compare | all => cases named
      | _ => exact iff_of_true rfl trivial

end Value

theorem ofPairs_normal {pairs : Entries} (texts : ∀ e ∈ pairs, e.1.isText = true)
    (normal : ∀ e ∈ pairs, e.2.isNormal = true) :
    (Keyed.ofPairs pairs).ByText ∧ ∀ e ∈ Keyed.ofPairs pairs, e.2.isNormal = true := by
  have empty : Keyed.ByText ([] : Entries) := ⟨nofun, .nil⟩
  refine List.foldlRecOn (motive := fun table : Entries =>
    table.ByText ∧ ∀ e ∈ table, e.2.isNormal = true) pairs _ ⟨empty, nofun⟩ ?_
  rintro table ⟨byText, kept⟩ pair given
  refine ⟨byText.set pair.2 (texts pair given), fun e mem => ?_⟩
  rcases (byText.mem_set_iff (texts pair given)).1 mem with rfl | ⟨mem, -⟩
  · exact normal pair given
  · exact kept e mem

theorem isNormal_encodeValue {v : Value} (keyed : v.Everywhere KeysDiffer) :
    (encodeValue v).isNormal = true := by
  induction v using parts_induction with
  | array v items array ih =>
      rw [encodeValue_array array, isNormal, allNormal_iff]
      exact List.forall_mem_map.2 fun item mem => ih item mem (keyed.item array item mem)
  | named v entries named ih =>
      rw [encodeValue_named named (keyed.here entries named), isNormal, normalEntries_iff]
      refine ofPairs_normal (encodedEach_texts entries) (List.forall_mem_map.2 fun e mem => ?_)
      exact ih e mem (keyed.entry named e mem)
  | leaf v array named =>
      rw [encodeValue_leaf array named]
      cases v with
      | list | tuple => cases array
      | map | readOnly | record | eq | isIn | atLeast | atMost | compare | all => cases named
      | _ => rfl

theorem named?_of_recordFields {record : Value} {values : Entries}
    (fields : recordFields record = .ok values) : record.named? = some values := by
  cases record with
  | map | record | eq | isIn | atLeast | atMost | compare | all =>
      cases fields
      rfl
  | _ => cases fields

theorem encodeRecord_fields {record : Value} {values : Entries}
    (fields : recordFields record = .ok values) (distinct : values.Distinct) :
    encodeRecord record = .ok (Keyed.ofPairs (encodedEach values)) ∧
      encodeValue record = .map (Keyed.ofPairs (encodedEach values)) := by
  refine ⟨?_, encodeValue_named (named?_of_recordFields fields) distinct⟩
  rw [encodeRecord, fields]
  exact congrArg (fun pairs => Except.ok (Keyed.ofPairs pairs)) (encodeEntries_map values)

theorem encodeRecord_normal {document : Document} (normal : (Value.map document).isNormal = true) :
    encodeRecord (.map document) = .ok document := by
  have byText := (normalEntries_iff.1 normal).1
  have fields : recordFields (.map document) = .ok document := rfl
  obtain ⟨written, encoded⟩ := encodeRecord_fields fields byText.distinct
  rw [encodeValue_normal normal] at encoded
  rw [written, ← Value.map.inj encoded]

/-- An encoding is in normal form everywhere, with arrays as lists of as many items in the
same order.  A value in normal form is its own encoding, so that encoding is idempotent. -/
theorem encodeValue_normal_form {v : Value} (keyed : v.Everywhere KeysDiffer) :
    (encodeValue v).Everywhere IsPlainForm ∧
      v.Everywhere (fun part =>
        ∀ items ∈ part.array?, encodeValue part = .list (items.map encodeValue)) ∧
      (∀ w : Value, w.Everywhere IsPlainForm → encodeValue w = w ∧
        ∀ document, w = .map document → encodeRecord w = .ok document) ∧
      encodeValue (encodeValue v) = encodeValue v ∧
      ∀ values, recordFields v = .ok values → ∃ document, encodeRecord v = .ok document ∧
        encodeValue v = .map document ∧ encodeRecord (.map document) = .ok document := by
  have normal := isNormal_encodeValue keyed
  refine ⟨isNormal_iff.1 normal, fun part _ items => encodeValue_array, ?_,
    encodeValue_normal normal, ?_⟩
  · intro w plain
    refine ⟨encodeValue_normal (isNormal_iff.2 plain), ?_⟩
    rintro document rfl
    exact encodeRecord_normal (isNormal_iff.2 plain)
  · intro values fields
    have distinct := keyed.here values (named?_of_recordFields fields)
    obtain ⟨written, encoded⟩ := encodeRecord_fields fields distinct
    rw [encoded] at normal
    exact ⟨_, written, encoded, encodeRecord_normal normal⟩

namespace Shapes

def triangle : Value :=
  .record "Shape" [("name", .str "tri"), ("points", .tuple [
    .readOnly [(.int 1, .tuple [.int 0, .null])], .record "Point" [("x", .int 1), ("y", .int 2)]])]

def document : Document :=
  [(.str "name", .str "tri"), (.str "points", .list [
    .map [(.str "1", .list [.int 0, .null])], .map [(.str "x", .int 1), (.str "y", .int 2)]])]

end Shapes

open Shapes in
theorem encodeValue_normal_form_triangle :
    triangle.Everywhere KeysDiffer ∧ encodeRecord triangle = .ok document ∧
      (Value.map document).Everywhere IsPlainForm ∧
      encodeRecord (.map document) = .ok document := by
  have keyed : triangle.Everywhere KeysDiffer := by
    simp [triangle, everywhere_record, everywhere_tuple, everywhere_readOnly, everywhere_null,
      everywhere_int, everywhere_str, named?, fields?, KeysDiffer, Keyed.Distinct,
      sameKey_str]
  obtain ⟨plain, -, -, -, records⟩ := encodeValue_normal_form keyed
  obtain ⟨written, encodes, encoded, again⟩ := records _ rfl
  obtain rfl : written = document := Value.map.inj (encoded.symm.trans rfl)
  rw [encoded] at plain
  exact ⟨keyed, encodes, plain, again⟩

end DocMapper
