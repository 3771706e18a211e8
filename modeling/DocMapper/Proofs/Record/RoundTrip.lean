import DocMapper.Proofs.Outcome
import DocMapper.Proofs.Value.Json
import DocMapper.Record.Codec
import Mathlib.Data.List.Nodup

/-!
# Records read back from their documents

A record that is written as a document and read back under its own field names is the
record again.  Lists and maps of JSON values are their own encodings.  Embedded records
are written as maps of their fields and rebuilt by their schemas; of an embedded map only
the order of the entries can change, to that of the declaration.
-/

namespace DocMapper

namespace Value

mutual

/-- Sequences are lists, and maps can be changed and have different texts as keys. -/
def isNormal : Value → Bool
  | .list items => allNormal items
  | .map entries => normalEntries entries
  | .tuple _ | .readOnly _ | .record .. | .eq .. | .isIn .. | .atLeast .. | .atMost ..
  | .compare .. | .all _ => false
  | _ => true
termination_by structural x => x

def allNormal : List Value → Bool
  | [] => true
  | v :: vs => isNormal v && allNormal vs
termination_by structural x => x

def normalEntries : List (Value × Value) → Bool
  | [] => true
  | (k, v) :: rest =>
      isText k && rest.all (fun e => !k.sameKey e.1) && isNormal v && normalEntries rest
termination_by structural x => x

end

theorem distinct_of_normalEntries {entries : Entries} (h : normalEntries entries = true) :
    entries.Distinct := by
  induction entries with
  | nil => exact List.Pairwise.nil
  | cons e rest ih =>
      obtain ⟨k, v⟩ := e
      simp only [normalEntries, Bool.and_eq_true, List.all_eq_true, Bool.not_eq_true'] at h
      exact List.pairwise_cons.2 ⟨h.1.1.2, ih h.2⟩

end Value

open Value

mutual

theorem encodeValue_normal : ∀ {v : Value}, v.isNormal = true → encodeValue v = v
  | .list items, h => by rw [encodeValue, encodeValues_normal h]
  | .map entries, h => by
      rw [encodeValue, encodeEntries_normal h, (distinct_of_normalEntries h).ofPairs]
  | .null, _ | .bool _, _ | .int _, _ | .float _, _ | .str _, _ | .bytes _, _
  | .recordType _, _ | .viewRef _, _ => rfl

theorem encodeValues_normal : ∀ {items : List Value}, allNormal items = true →
    encodeValues items = items
  | [], _ => rfl
  | v :: vs, h => by
      obtain ⟨first, rest⟩ := Bool.and_eq_true_iff.1 h
      rw [encodeValues, encodeValue_normal first, encodeValues_normal rest]

theorem encodeEntries_normal : ∀ {entries : List (Value × Value)},
    normalEntries entries = true → encodeEntries entries = entries
  | [], _ => rfl
  | (k, v) :: rest, h => by
      simp only [normalEntries, Bool.and_eq_true] at h
      obtain ⟨s, rfl⟩ := isText_iff.1 h.1.1.1
      rw [encodeEntries, encodeValue_normal h.1.2, encodeEntries_normal h.2]
      rfl

end

def Value.isStored (v : Value) : Bool := v.isJson && v.isNormal

theorem encodeEntries_map (entries : Entries) :
    encodeEntries entries = entries.map fun e => (.str e.1.text, encodeValue e.2) := by
  induction entries with
  | nil => rfl
  | cons e rest ih => rw [encodeEntries, ih]; rfl

theorem encodeNamed_map (fields : List (String × Value)) :
    encodeNamed fields = fields.map fun f => (.str f.1, encodeValue f.2) := by
  induction fields with
  | nil => rfl
  | cons f rest ih => rw [encodeNamed, ih]; rfl

theorem encodeRecord_texts {values : Entries} (texts : ∀ e ∈ values, e.1.isText = true)
    (distinct : values.Distinct) :
    encodeRecord (.map values) = .ok (values.map fun e => (e.1, encodeValue e.2)) := by
  have keys : encodeEntries values = values.map fun e => (e.1, encodeValue e.2) := by
    rw [encodeEntries_map]
    refine List.map_congr_left fun e mem => ?_
    obtain ⟨s, hs⟩ := isText_iff.1 (texts e mem)
    rw [hs]
    rfl
  have kept : Keyed.Distinct (values.map fun e => (e.1, encodeValue e.2)) :=
    List.pairwise_map.2 distinct
  change Except.ok (Keyed.ofPairs (encodeEntries values)) = _
  rw [keys, kept.ofPairs]

theorem decodeDocument_distinct {declared : List Field} {document : Value} {record : Entries}
    (distinct : record.Distinct)
    (reads : ∀ e ∈ record, decodeField declared document e.1 = .ok e.2) :
    decodeDocument declared document (record.map Prod.fst) = .ok record := by
  have run : ∀ before : Entries, (before ++ record).Distinct →
      (record.map Prod.fst).foldlM (fun record name => do
        return Keyed.set record name (← decodeField declared document name)) before =
        .ok (before ++ record) := by
    clear distinct
    induction record with
    | nil => exact fun before _ => congrArg Except.ok (List.append_nil before).symm
    | cons e rest ih =>
        obtain ⟨name, value⟩ := e
        intro before distinct
        have first : decodeField declared document name = .ok value :=
          reads _ List.mem_cons_self
        rw [List.map_cons, List.foldlM_cons, first]
        change (rest.map Prod.fst).foldlM _ (before.set name value) = _
        rw [Keyed.set_absent value distinct.not_has]
        rw [List.append_cons] at distinct
        have others := ih (fun e mem => reads e (List.mem_cons_of_mem _ mem)) _ distinct
        exact others.trans (congrArg Except.ok (List.append_cons ..).symm)
  exact run [] distinct

/-! ## Embedded records -/

/-- One record of an embedded schema: an instance of its record type all of whose fields
are declared, or without a record type a map under exactly the declared names. -/
def Embedded.Holds (embedded : Embedded) (value : Value) : Prop :=
  match embedded.recordType with
  | some type => ∃ fields, value = .record type.name fields ∧
      fields.map Prod.fst = type.fields.map Prod.fst ∧ (fields.map Prod.fst).Nodup ∧
      ∀ f ∈ fields, .str f.1 ∈ embedded.fieldNames ∧ f.2.isStored = true
  | none => ∃ entries, value = .map entries ∧ value.isStored = true ∧
      (entries.map Prod.fst).Perm embedded.fieldNames

/-- The value itself, or a map that lists the same entries in another order. -/
def Value.Reordered (a b : Value) : Prop :=
  a = b ∨ ∃ xs ys, a = .map xs ∧ b = .map ys ∧ xs.Perm ys

theorem find?_picked (table : Entries) (names : List Value) (s : String) :
    Keyed.find? (names.filterMap fun name => (table.find? name).map fun value => (name, value))
        (.str s) =
      if names.any (fun name => name.sameKey (.str s)) then table.find? (.str s) else none := by
  induction names with
  | nil => rfl
  | cons name rest ih =>
      rw [List.filterMap_cons, List.any_cons]
      by_cases named : name.sameKey (.str s) = true
      · have found := table.find?_named named
        rw [named, Bool.true_or, if_pos rfl, ← found]
        cases h : table.find? name with
        | some value => simp only [Option.map_some, Keyed.find?_cons, named, if_true]
        | none =>
            rw [h] at found
            simp only [Option.map_none, ih, ← found, ite_self]
      · rw [Bool.not_eq_true] at named
        rw [named, Bool.false_or, ← ih]
        cases table.find? name with
        | some value => simp only [Option.map_some, Keyed.find?_cons, named, Bool.false_eq_true,
            if_false]
        | none => rfl

section Embedded

variable {embedded : Embedded} {value : Value}

theorem find?_fields {fields : List (String × Value)} (distinct : (fields.map Prod.fst).Nodup)
    {f : String × Value} (mem : f ∈ fields) :
    Keyed.find? (fields.map fun f => (Value.str f.1, f.2)) (.str f.1) = some f.2 := by
  have kept : Keyed.Distinct (fields.map fun f => (Value.str f.1, f.2)) := by
    refine (distinct_iff_nodup ?_).2 ?_
    · intro e mem
      obtain ⟨f, -, rfl⟩ := List.mem_map.1 mem
      rfl
    · have named := (List.nodup_map_iff fun _ _ h => Value.str.inj h).2 distinct
      rwa [List.map_map] at named ⊢
  exact kept.find?_of_mem (List.mem_map_of_mem mem)

theorem instantiate_fields {type : RecordType} {names : List Value}
    {fields : List (String × Value)} (same : fields.map Prod.fst = type.fields.map Prod.fst)
    (distinct : (fields.map Prod.fst).Nodup) (declared : ∀ f ∈ fields, .str f.1 ∈ names) :
    type.instantiate (names.filterMap fun name =>
      (Keyed.find? (fields.map fun f => (Value.str f.1, f.2)) name).map fun value =>
        (name, value)) = .ok (.record type.name fields) := by
  let table : Entries := fields.map fun f => (Value.str f.1, f.2)
  let parts : List (Value × Value) :=
    names.filterMap fun name => (table.find? name).map fun value => (name, value)
  have known :
      parts.all (fun p => type.fields.any fun f => (Value.str f.1).sameKey p.1) = true := by
    rw [List.all_eq_true]
    intro p mem
    obtain ⟨name, -, picked⟩ := List.mem_filterMap.1 mem
    obtain ⟨value, found, rfl⟩ := Option.map_eq_some_iff.1 picked
    obtain ⟨k, mem, named⟩ := Keyed.mem_of_find? found
    obtain ⟨f, hf, heq⟩ := List.mem_map.1 mem
    cases heq
    have declares : f.1 ∈ type.fields.map Prod.fst := same ▸ List.mem_map_of_mem hf
    obtain ⟨g, hg, hname⟩ := List.mem_map.1 declares
    exact List.any_eq_true.2 ⟨g, hg, hname ▸ named⟩
  have given : ∀ f ∈ fields, Keyed.find? parts (.str f.1) = some f.2 := by
    intro f mem
    rw [find?_picked, if_pos, find?_fields distinct mem]
    exact List.any_eq_true.2 ⟨_, declared f mem, (sameKey_text _ _).2 rfl⟩
  have paired : List.Forall₂ (fun d f => d.1 = f.1) type.fields fields := by
    rw [← List.forall₂_map_right_iff, ← List.forall₂_map_left_iff, List.forall₂_eq_eq_eq]
    exact same.symm
  rw [RecordType.instantiate, known]
  refine Outcome.bind_eq_ok.2
    ⟨fields, Outcome.mapM_ok (forall₂_imp_of_mem ?_ paired), rfl⟩
  rintro ⟨name, default⟩ - ⟨name', value⟩ mem rfl
  simp only [parts, table] at given
  simp only [given _ mem]

theorem same_record {type : String} {fields : List (String × Value)}
    (h : ∀ f ∈ fields, f.2.same f.2 = true) :
    (Value.record type fields).same (.record type fields) = true := by
  have agree : agreeFields false fields fields = true := by
    induction fields with
    | nil => rfl
    | cons f rest ih =>
        obtain ⟨name, v⟩ := f
        have first : agree false v v = true := h _ List.mem_cons_self
        rw [agreeFields, first, ih fun f mem => h f (List.mem_cons_of_mem _ mem)]
        simp
  simp [same, Value.agree, against, agree]

theorem loadRecord_instance {type : RecordType} (typed : embedded.recordType = some type)
    (holds : embedded.Holds value) :
    loadRecord embedded (encodeValue value) = .ok value ∧ value.same value = true ∧
      (encodeValue value).isNull = false := by
  rw [Embedded.Holds, typed] at holds
  obtain ⟨fields, rfl, same, distinct, declared⟩ := holds
  have written : encodeValue (.record type.name fields) =
      .map (fields.map fun f => (Value.str f.1, f.2)) := by
    rw [encodeValue, encodeNamed_map]
    refine congrArg Value.map (List.map_congr_left fun f mem => ?_)
    rw [encodeValue_normal (Bool.and_eq_true_iff.1 (declared f mem).2).2]
  refine ⟨?_, same_record fun f mem => ?_, ?_⟩
  · rw [written, loadRecord]
    simp only [entries?, typed]
    exact instantiate_fields same distinct fun f mem => (declared f mem).1
  · exact same_refl (Bool.and_eq_true_iff.1 (declared f mem).2).1
  · rw [written]
    rfl

theorem perm_listed {entries : Entries} {names : List Value}
    (json : jsonEntries entries = true) (perm : (entries.map Prod.fst).Perm names) :
    entries.Perm (names.map fun name => (name, .ofOption (entries.find? name))) := by
  obtain ⟨forms, distinct⟩ := jsonEntries_iff.1 json
  have listed : (entries.map Prod.fst).map
      (fun name => (name, Value.ofOption (entries.find? name))) = entries := by
    rw [List.map_map]
    refine (List.map_congr_left fun e mem => ?_).trans (List.map_id entries)
    obtain ⟨k, v⟩ := e
    obtain ⟨s, rfl⟩ := isText_iff.1 (forms _ mem).1
    simp only [Function.comp_apply, distinct.find?_of_mem mem, Value.ofOption, id]
  have reordered := perm.map fun name => (name, Value.ofOption (entries.find? name))
  rwa [listed] at reordered

theorem loadRecord_map (untyped : embedded.recordType = none) (holds : embedded.Holds value) :
    ∃ loaded, loadRecord embedded (encodeValue value) = .ok loaded ∧ value.Reordered loaded ∧
      loaded.same value = true ∧ (encodeValue value).isNull = false := by
  rw [Embedded.Holds, untyped] at holds
  obtain ⟨entries, rfl, stored, perm⟩ := holds
  obtain ⟨json, normal⟩ := Bool.and_eq_true_iff.1 stored
  have json' : jsonEntries entries = true := json
  obtain ⟨forms, distinct⟩ := jsonEntries_iff.1 json'
  have reordered := perm_listed json' perm
  let listed : Entries :=
    embedded.fieldNames.map fun name => (name, .ofOption (Keyed.find? entries name))
  have texts : ∀ e ∈ listed, e.1.isText = true :=
    fun e mem => (forms e (reordered.mem_iff.2 mem)).1
  have distinct' : listed.Distinct := by
    rw [distinct_iff_nodup fun e mem => (forms e mem).1] at distinct
    rw [distinct_iff_nodup texts]
    exact (reordered.map Prod.fst).nodup_iff.1 distinct
  refine ⟨.map listed, ?_, .inr ⟨entries, listed, rfl, rfl, reordered⟩, ?_, ?_⟩
  · rw [encodeValue_normal normal, loadRecord]
    simp only [entries?, untyped]
    exact congrArg (fun loaded => Except.ok (Value.map loaded)) distinct'.ofPairs
  · have agree : agreeEntries false listed entries = true := by
      refine (agreeEntries_texts_iff texts (fun e mem => (forms e mem).1) distinct).2 ?_
      intro e mem
      have mem' := reordered.mem_iff.2 mem
      exact ⟨e.2, mem', same_refl (forms e mem').2⟩
    exact (same_object rfl json).2 ⟨entries, rfl, reordered.length_eq.symm, agree⟩
  · rw [encodeValue_normal normal]
    rfl

theorem loadRecord_encodeValue (holds : embedded.Holds value) :
    ∃ loaded, loadRecord embedded (encodeValue value) = .ok loaded ∧ value.Reordered loaded ∧
      loaded.same value = true ∧ (encodeValue value).isNull = false := by
  cases typed : embedded.recordType with
  | none => exact loadRecord_map typed holds
  | some type =>
      obtain ⟨loads, same, present⟩ := loadRecord_instance typed holds
      exact ⟨value, loads, .inl rfl, same, present⟩

end Embedded

/-- What a record can have under a field: a JSON value, unless the field embeds records. -/
def Field.Holds (field : Field) (value : Value) : Prop :=
  match field.kind, field.embed with
  | .embedsOne, some embedded => embedded.Holds value
  | .embedsMany, some embedded =>
      ∃ items, value = .list items ∧ ∀ item ∈ items, embedded.Holds item
  | _, _ => value.isStored = true

def Entity.Holds (entity : Entity) (name value : Value) : Prop :=
  match embeddedField? entity.fields name with
  | some field => value = .null ∨ field.Holds value
  | none => value.isStored = true

def Value.Restored (a b : Value) : Prop :=
  a.Reordered b ∨ ∃ xs ys, a = .list xs ∧ b = .list ys ∧ List.Forall₂ Value.Reordered xs ys

def Entity.Restores (entity : Entity) (name value back : Value) : Prop :=
  match embeddedField? entity.fields name with
  | some _ => value.Restored back
  | none => back = value

theorem loadRecords_encodeValues {embedded : Embedded} {items : List Value}
    (holds : ∀ item ∈ items, embedded.Holds item) :
    ∃ loaded, (encodeValues items).mapM (loadRecord embedded) = .ok loaded ∧
      List.Forall₂ Value.Reordered items loaded ∧ agreeItems false loaded items = true := by
  induction items with
  | nil => exact ⟨[], rfl, .nil, rfl⟩
  | cons item rest ih =>
      obtain ⟨first, loads, reordered, same, -⟩ :=
        loadRecord_encodeValue (holds item List.mem_cons_self)
      obtain ⟨others, loads', reordered', same'⟩ :=
        ih fun item mem => holds item (List.mem_cons_of_mem _ mem)
      refine ⟨first :: others, ?_, .cons reordered reordered', ?_⟩
      · exact Outcome.mapM_cons_ok.2 ⟨first, others, loads, loads', rfl⟩
      · exact Bool.and_eq_true_iff.2 ⟨same, same'⟩

section Fields

variable {entity : Entity} {field : Field} {name value : Value}

theorem stored_encodeValue (stored : value.isStored = true) :
    encodeValue value = value ∧ value.same value = true := by
  obtain ⟨json, normal⟩ := Bool.and_eq_true_iff.1 stored
  exact ⟨encodeValue_normal normal, same_refl json⟩

theorem load_encodeValue (holds : field.Holds value) :
    (∃ back, field.load (encodeValue value) = .ok back ∧ value.Restored back ∧
      back.same value = true) ∧ ((encodeValue value).isNull = true → value = .null) := by
  have plain : value.isStored = true → field.load value = .ok value →
      (∃ back, field.load (encodeValue value) = .ok back ∧ value.Restored back ∧
        back.same value = true) ∧ ((encodeValue value).isNull = true → value = .null) := by
    intro stored loads
    obtain ⟨written, same⟩ := stored_encodeValue stored
    rw [written]
    exact ⟨⟨value, loads, .inl (.inl rfl), same⟩, isNull_iff.1⟩
  obtain ⟨name, kind, required, default, embed, readAfterWrites, description⟩ := field
  cases embed with
  | none => cases kind <;> exact plain holds rfl
  | some embedded =>
      cases kind with
      | embedsOne =>
          obtain ⟨loaded, loads, reordered, same, present⟩ := loadRecord_encodeValue holds
          refine ⟨⟨loaded, loads, .inl reordered, same⟩, fun null => ?_⟩
          rw [present] at null
          cases null
      | embedsMany =>
          obtain ⟨items, rfl, holds⟩ := holds
          obtain ⟨loaded, loads, reordered, same⟩ := loadRecords_encodeValues holds
          refine ⟨⟨.list loaded, ?_, .inr ⟨items, loaded, rfl, rfl, reordered⟩, ?_⟩, nofun⟩
          · exact Outcome.bind_eq_ok.2 ⟨loaded, loads, rfl⟩
          · simp [Value.same, agree, against, same]
      | _ => exact plain holds rfl

theorem decodeField_encodeValue {document : Entries} {s : String}
    (found : document.find? (.str s) = some (encodeValue value))
    (holds : entity.Holds (.str s) value) :
    ∃ back, decodeField entity.fields (.map document) (.str s) = .ok back ∧
      entity.Restores (.str s) value back ∧ back.same value = true := by
  have read : (Value.map document).get (Value.str s).text = .ok (encodeValue value) :=
    congrArg (fun v => Except.ok (Value.ofOption v)) found
  unfold Entity.Restores
  rw [Entity.Holds] at holds
  rw [decodeField, read]
  cases declared : embeddedField? entity.fields (.str s) with
  | none =>
      rw [declared] at holds
      obtain ⟨written, same⟩ := stored_encodeValue holds
      exact ⟨value, congrArg Except.ok written, rfl, same⟩
  | some field =>
      rw [declared] at holds
      by_cases null : value = .null
      · subst null
        exact ⟨.null, rfl, .inl (.inl rfl), rfl⟩
      · obtain ⟨⟨back, loads, restored, same⟩, unwritten⟩ :=
          load_encodeValue (holds.resolve_left null)
        have written : (encodeValue value).isNull = false :=
          Bool.eq_false_iff.2 (mt unwritten null)
        refine ⟨back, ?_, restored, same⟩
        change (if (encodeValue value).isNull then .ok (encodeValue value)
          else field.load (encodeValue value)) = _
        rw [written]
        exact loads

end Fields

/-- A record comes back from its document: under the same names in the same order, with
equal values, which differ at most in the order of embedded maps. -/
theorem decodeDocument_encodeRecord {entity : Entity} {values : Entries}
    (texts : ∀ e ∈ values, e.1.isText = true) (distinct : values.Distinct)
    (holds : ∀ e ∈ values, entity.Holds e.1 e.2) :
    ∃ document decoded, encodeRecord (.map values) = .ok document ∧
      decodeDocument entity.fields (.map document) (values.map Prod.fst) = .ok decoded ∧
      decoded.map Prod.fst = values.map Prod.fst ∧
      (Value.map decoded).same (.map values) = true ∧
      List.Forall₂ (fun e d => entity.Restores e.1 e.2 d.2) values decoded := by
  let document : Document := values.map fun e => (e.1, encodeValue e.2)
  have written : document.Distinct := List.pairwise_map.2 distinct
  have each : ∀ e ∈ values, ∃ back, decodeField entity.fields (.map document) e.1 = .ok back ∧
      entity.Restores e.1 e.2 back ∧ back.same e.2 = true := by
    rintro ⟨k, v⟩ mem
    obtain ⟨s, rfl⟩ := isText_iff.1 (texts _ mem)
    have found : document.find? (.str s) = some (encodeValue v) :=
      written.find?_of_mem (List.mem_map_of_mem mem)
    exact decodeField_encodeValue found (holds _ mem)
  choose! back reads restores same using each
  let decoded : Entries := values.map fun e => (e.1, back e)
  have names : decoded.map Prod.fst = values.map Prod.fst := List.map_map
  have distinct' : decoded.Distinct := List.pairwise_map.2 distinct
  have reads' : ∀ d ∈ decoded, decodeField entity.fields (.map document) d.1 = .ok d.2 := by
    intro d mem
    obtain ⟨e, given, rfl⟩ := List.mem_map.1 mem
    exact reads e given
  refine ⟨document, decoded, encodeRecord_texts texts distinct, ?_, names, ?_, ?_⟩
  · rw [← names]
    exact decodeDocument_distinct distinct' reads'
  · have texts' : ∀ d ∈ decoded, d.1.isText = true := by
      intro d mem
      obtain ⟨e, given, rfl⟩ := List.mem_map.1 mem
      exact texts e given
    have agree : agreeEntries false decoded values = true := by
      refine (agreeEntries_texts_iff texts' texts distinct).2 fun d mem => ?_
      obtain ⟨e, given, rfl⟩ := List.mem_map.1 mem
      exact ⟨e.2, given, same e given⟩
    have length : decoded.length = values.length := List.length_map _
    simp [Value.same, Value.agree, against, entries?, length, agree]
  · exact List.forall₂_map_right_iff.2 (List.forall₂_same.2 restores)

namespace Reviews

def stats : Embedded :=
  ⟨.str "Stats", [.plain "time" .integer, .plain "visits" .integer, .plain "shares" .integer],
    some ⟨"Stats", [("visits", none), ("time", some (.int 0))]⟩⟩

def grant : Embedded :=
  ⟨.str "Grant", [.plain "user" .string, .plain "access" .string], none⟩

def entity : Entity :=
  ⟨.str "Review", .str "reviews",
    [.plain "title" .string, { Field.plain "stats" .embedsOne with embed := some stats },
      { Field.plain "grants" .embedsMany with embed := some grant }], [], .str ""⟩

def review : Entries :=
  [(.str "grants", .list [.map [(.str "access", .str "read"), (.str "user", .str "ann")]]),
    (.str "title", .null),
    (.str "stats", .record "Stats" [("visits", .int 3), ("time", .list [.int 1, .bool true])]),
    (.str "tags", .map [(.str "b", .list []), (.str "a", .map [])])]

end Reviews

open Reviews in
/-- A list of maps in another order than declared, a null, an instance and a nested map. -/
theorem decodeDocument_encodeRecord_review :
    (∀ e ∈ review, e.1.isText = true) ∧ review.Distinct ∧
      (∀ e ∈ review, entity.Holds e.1 e.2) ∧
      ∃ document decoded, encodeRecord (.map review) = .ok document ∧
        decodeDocument entity.fields (.map document) (review.map Prod.fst) = .ok decoded ∧
        (Value.map decoded).same (.map review) = true := by
  have texts : ∀ e ∈ review, e.1.isText = true := by simp [review, isText]
  have distinct : review.Distinct := by
    refine (distinct_iff_nodup texts).2 ?_
    simp [review]
  have holds : ∀ e ∈ review, entity.Holds e.1 e.2 := by
    have grants : grant.Holds (.map [(.str "access", .str "read"), (.str "user", .str "ann")]) :=
      ⟨_, rfl, rfl, List.Perm.swap ..⟩
    have stats' : stats.Holds
        (.record "Stats" [("visits", .int 3), ("time", .list [.int 1, .bool true])]) := by
      refine ⟨_, rfl, rfl, by decide, ?_⟩
      simp [stats, Embedded.fieldNames, Field.plain, isStored, isJson, allJson, isNormal, allNormal]
    simp only [review, List.forall_mem_cons]
    refine ⟨.inr ⟨_, rfl, ?_⟩, rfl, .inr stats', rfl, List.forall_mem_nil _⟩
    simpa using grants
  obtain ⟨document, decoded, encodes, decodes, -, same, -⟩ :=
    decodeDocument_encodeRecord texts distinct holds
  exact ⟨texts, distinct, holds, document, decoded, encodes, decodes, same⟩

end DocMapper
