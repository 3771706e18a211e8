import DocMapper.Proofs.Record.RoundTrip
import DocMapper.Proofs.Value.Fields
import DocMapper.Proofs.Write.Inserted

/-!
# What an insertion stores

A document that is inserted has the fields of its record, the defaults of the fields that
the record leaves out, and the identifier and the revision that the store gives it.  No
other document changes.  The answer holds the requested fields as they are read back from
the stored document.
-/

namespace DocMapper

namespace Database

structure Replaces (db after : Database) (id : Value) (stored : Stored) : Prop where
  now : after.documents.find? id = some stored
  others : ∀ d : Value × Stored, d.1.sameKey id = false →
    (d ∈ after.documents ↔ d ∈ db.documents)

theorem enter_replaces (db : Database) {id : Value} (hashable : id.hashable = true)
    (stored : Stored) : db.Replaces (db.enter id stored) id stored where
  now := Keyed.find?_set_self _ _ (Value.sameKey_self hashable)
  others _ apart := Keyed.mem_set_of_apart (Value.sameKey_self hashable) apart

theorem Replaces.of_named {db after : Database} {id : String} {id' : Value} {stored : Stored}
    (named : id'.referent = .str id) (h : db.Replaces after id' stored) :
    db.Replaces after (.str id) stored where
  now := by
    rw [← Keyed.find?_named _ ((Value.sameKey_text id' id).2 named)]
    exact h.now
  others d apart := by
    refine h.others d ?_
    rw [← Value.sameKey_referent_right, named]
    exact apart

end Database

structure Reads (declared : List Field) (document : Document) (names : List Value)
    (read : Entries) : Prop where
  keys : ∀ k, k ∈ read.map Prod.fst ↔ k ∈ names
  distinct : read.Distinct
  decoded : ∀ e ∈ read, decodeField declared (.map document) e.1 = .ok e.2

theorem reads_of_foldlM {declared : List Field} {document : Document} {names : List Value}
    {before read : Entries} (texts : ∀ name ∈ names, name.isText = true)
    (byText : before.ByText)
    (decoded : ∀ e ∈ before, decodeField declared (.map document) e.1 = .ok e.2)
    (h : names.foldlM (fun record name => do
      return Keyed.set record name (← decodeField declared (.map document) name)) before =
      .ok read) :
    read.ByText ∧ (∀ e ∈ read, decodeField declared (.map document) e.1 = .ok e.2) ∧
      ∀ k, k ∈ read.map Prod.fst ↔ k ∈ before.map Prod.fst ∨ k ∈ names := by
  induction names generalizing before with
  | nil =>
      cases h
      exact ⟨byText, decoded, fun k => by simp⟩
  | cons name rest ih =>
      obtain ⟨text, texts⟩ := List.forall_mem_cons.1 texts
      rw [List.foldlM_cons] at h
      obtain ⟨next, first, h⟩ := Outcome.bind_eq_ok.1 h
      obtain ⟨value, hvalue, first⟩ := Outcome.bind_eq_ok.1 first
      cases first
      have decoded' : ∀ e ∈ Keyed.set before name value,
          decodeField declared (.map document) e.1 = .ok e.2 := by
        intro e mem
        rcases (byText.mem_set_iff text).1 mem with same | ⟨mem, -⟩
        · rw [same]
          exact hvalue
        · exact decoded e mem
      obtain ⟨byText', decoded'', keys⟩ := ih texts (byText.set value text) decoded' h
      refine ⟨byText', decoded'', fun k => ?_⟩
      rw [keys, byText.mem_keys_set text, List.mem_cons]
      tauto

theorem reads_of_decodeDocument {declared : List Field} {document : Document}
    {names : List Value} {read : Entries} (texts : ∀ name ∈ names, name.isText = true)
    (h : decodeDocument declared (.map document) names = .ok read) :
    Reads declared document names read := by
  have empty : Keyed.ByText ([] : Entries) := ⟨nofun, List.Pairwise.nil⟩
  obtain ⟨byText, decoded, keys⟩ := reads_of_foldlM texts empty nofun h
  exact ⟨fun k => (keys k).trans (by simp), byText.distinct, decoded⟩

namespace Write

open StoreM Memory Database

/-- The encoded value that a record gives the field; null leaves a reserved field open. -/
def given? (values : Entries) (name : String) : Option Value :=
  ((values.find? (.str name)).map encodeValue).filter fun v =>
    !(v.isNull && [idField, revField].contains name)

def default? (declared : List Field) (name : String) : Option Value :=
  (declared.find? fun field =>
    field.name.sameKey (.str name) && !field.default.isNull).map fun field =>
      encodeValue field.default

section Prepared

variable {fields fields' : Document}

theorem byText_withoutUnset (h : fields.ByText) (name : String) :
    (withoutUnset fields name).ByText := by
  unfold withoutUnset
  split
  · exact h.erase _
  · exact h

theorem find?_withDefault {field : Field} (text : field.name.isText = true)
    (h : withDefault fields field = .ok fields') (s : String) :
    fields'.find? (.str s) = (fields.find? (.str s)).or (default? [field] s) := by
  obtain ⟨name, hname⟩ := Value.isText_iff.1 text
  rw [default?, List.find?_singleton, hname, Value.sameKey_str]
  obtain ⟨kept, rfl⟩ | ⟨given, absent, -, rfl⟩ := withDefault_ok h
  · by_cases same : name = s
    · subst same
      rcases kept with unset | present
      · simp [unset]
      · rw [hname, Keyed.has] at present
        exact (Option.or_of_isSome present).symm
    · simp [same]
  · rw [hname, Keyed.has, Option.isSome_eq_false_iff, Option.isNone_iff_eq_none] at absent
    rw [hname, Keyed.find?_set_text]
    by_cases same : name = s
    · subst same
      simp [given, absent]
    · simp [same]

theorem byText_withDefault {field : Field} (text : field.name.isText = true)
    (byText : fields.ByText) (h : withDefault fields field = .ok fields') : fields'.ByText := by
  obtain ⟨-, rfl⟩ | ⟨-, -, -, rfl⟩ := withDefault_ok h
  · exact byText
  · exact byText.set _ text

theorem default?_cons (field : Field) (rest : List Field) (s : String) :
    default? (field :: rest) s = (default? [field] s).or (default? rest s) := by
  rw [default?, default?, default?, List.find?_cons, List.find?_singleton]
  cases field.name.sameKey (.str s) && !field.default.isNull <;> simp

theorem withDefaults_fields {declared : List Field}
    (texts : ∀ field ∈ declared, field.name.isText = true) (byText : fields.ByText)
    (h : declared.foldlM withDefault fields = .ok fields') :
    fields'.ByText ∧
      ∀ s, fields'.find? (.str s) = (fields.find? (.str s)).or (default? declared s) := by
  induction declared generalizing fields with
  | nil =>
      cases h
      exact ⟨byText, fun s => Option.or_none.symm⟩
  | cons field rest ih =>
      obtain ⟨text, texts⟩ := List.forall_mem_cons.1 texts
      rw [List.foldlM_cons] at h
      obtain ⟨next, first, h⟩ := Outcome.bind_eq_ok.1 h
      obtain ⟨byText', found⟩ := ih texts (byText_withDefault text byText first) h
      refine ⟨byText', fun s => ?_⟩
      rw [found, find?_withDefault text first, default?_cons field rest, Option.or_assoc]

theorem prepare_fields {entity : Entity} {record : Value} {values : Entries}
    (texts : Texts entity) (recorded : recordFields record = .ok values)
    (byText : values.ByText) (h : prepare entity record = .ok fields) :
    fields.ByText ∧
      ∀ s, fields.find? (.str s) = (given? values s).or (default? entity.fields s) := by
  have encoded : encodeRecord record = .ok (values.map fun e => (e.1, encodeValue e.2)) := by
    rw [← encodeRecord_texts byText.texts byText.distinct, encodeRecord, encodeRecord, recorded]
    rfl
  rw [prepare, encoded] at h
  have kept := byText_withoutUnset (byText_withoutUnset (byText.map encodeValue) idField) revField
  obtain ⟨byText', found⟩ := withDefaults_fields texts kept h
  refine ⟨byText', fun s => ?_⟩
  rw [found, find?_withoutUnset, find?_withoutUnset, Keyed.find?_map, Option.filter_filter,
    given?]
  congr 2
  funext v
  rw [List.contains_cons, List.contains_cons, List.contains_nil, Bool.or_false]
  cases v.isNull <;> cases s == idField <;> cases s == revField <;> rfl

end Prepared

/-! ## Stored documents -/

section Stored

variable {m : Memory} {name : String} {entity : Entity} {record returning docId rev : Value}
  {read : Entries}

theorem insertAnswer_inserted {fields : Document} {saving : Outcome Entries}
    (h : insertAnswer entity fields returning saving = .ok (.inserted docId rev read)) :
    ∃ saved, saving = .ok saved ∧ docId = identifierOf saved ∧ rev = revisionOf saved ∧
      returned entity saved returning = .ok read := by
  obtain ⟨new, answered, h⟩ := Outcome.bind_eq_ok.1 h
  cases new with
  | none => cases h
  | some saved =>
      obtain ⟨read', decoded, h⟩ := Outcome.bind_eq_ok.1 h
      cases h
      refine ⟨saved, ?_, rfl, rfl, decoded⟩
      cases saving with
      | ok saved' =>
          cases answered
          rfl
      | error failure =>
          cases failure with
          | fault fault => cases fault <;> cases answered
          | _ => cases answered

theorem inserted_saved
    (inserted : (eval (insert name entity record returning) m).1 =
      .ok (.inserted docId rev read)) :
    ∃ fields db saved, document entity record = .ok fields ∧ m.pendingFailure = none ∧
      m.databases.find? (.str name) = some db ∧
      (db.save m.tokens (.map fields)).outcome = .ok saved ∧ docId = identifierOf saved ∧
      rev = revisionOf saved ∧ returned entity saved returning = .ok read := by
  cases prepared : document entity record with
  | error failure =>
      rw [eval_insert_invalid m name prepared] at inserted
      cases inserted
  | ok fields =>
      obtain ⟨records, answered⟩ := eval_insertPrepared m name entity fields returning
      rw [eval_insert_valid m name prepared, answered] at inserted
      obtain ⟨saved, saving, identified, revised, decoded⟩ := insertAnswer_inserted inserted
      cases free : m.pendingFailure with
      | some fault =>
          rw [Memory.Call.eval_pending (.save name (.map fields)) free] at saving
          cases saving
      | none =>
          cases found : m.databases.find? (.str name) with
          | none =>
              rw [eval_save_missing free found] at saving
              cases saving
          | some db =>
              rw [eval_save_outcome free found] at saving
              exact ⟨fields, db, saved, rfl, rfl, rfl, saving, identified, revised, decoded⟩

theorem byText_filed {fields : Document} (byText : fields.ByText) (id : Value)
    (revision : Revision) : Keyed.ByText (filed fields id revision) :=
  (byText.set id rfl).set _ rfl

theorem find?_filed_text (fields : Document) (id : Value) (revision : Revision) (s : String) :
    (filed fields id revision).find? (.str s) =
      if s = revField then some (.str revision.text)
      else if s = idField then some id else fields.find? (.str s) := by
  simp only [filed, Keyed.find?_set_text, eq_comm (a := s)]

theorem save_ok {db : Database} {tokens : Tokens} {fields saved : Document}
    (h : (db.save tokens (.map fields)).outcome = .ok saved) :
    ∃ id revision, id.hashable = true ∧ saved = filed fields id revision ∧
      (db.save tokens (.map fields)).database = db.enter id ⟨saved, revision⟩ ∧
      ((identifierOf fields).truthy = true → id = identifierOf fields) := by
  have files := db.save_files tokens fields
  have own : (identifierOf fields).truthy = true →
      (place tokens fields).1 = identifierOf fields := fun truthy => by rw [place, if_pos truthy]
  generalize db.save tokens (.map fields) = effect at files h ⊢
  cases files with
  | odd => cases h
  | stale => cases h
  | fixed => cases h
  | filed revision next admitted copyable =>
      cases h
      exact ⟨_, revision, admitted.hashable, rfl, rfl, own⟩

/-- An inserted record is stored under the returned identifier with exactly its fields,
encoded, the defaults of the fields that are missing, and the identifier and revision that
are returned.  Nothing else changes, and the answer reads the requested fields back. -/
theorem insert_stores_record {values : Entries} {names : List Value} (texts : Texts entity)
    (recorded : recordFields record = .ok values) (byText : values.ByText)
    (requested : returning.items = .ok names) (named : ∀ field ∈ names, field.isText = true)
    (inserted : (eval (insert name entity record returning) m).1 =
      .ok (.inserted docId rev read)) :
    ∃ db after stored, m.databases.find? (.str name) = some db ∧
      (eval (insert name entity record returning) m).2.databases =
        m.databases.set (.str name) after ∧
      db.Replaces after docId stored ∧ stored.fields.ByText ∧
      rev = .str stored.revision.text ∧
      (∀ field : String, stored.fields.find? (.str field) =
        if field = revField then some rev
        else if field = idField then some docId
        else (given? values field).or (default? entity.fields field)) ∧
      (∀ id, (given? values idField).or (default? entity.fields idField) = some id →
        id.truthy = true → docId = id) ∧
      Reads entity.fields stored.fields names read := by
  obtain ⟨fields, db, saved, accepted, free, found, saving, rfl, rfl, answer⟩ :=
    inserted_saved inserted
  obtain ⟨id, revision, hashable, rfl, entered, own⟩ := save_ok saving
  obtain ⟨u, -, prepared⟩ := Outcome.bind_eq_ok.1 accepted
  obtain ⟨byText', holds⟩ := prepare_fields texts recorded byText prepared
  obtain ⟨names', listed, decoded⟩ := Outcome.bind_eq_ok.1 answer
  cases requested.symm.trans listed
  let stored : Stored := ⟨filed fields id revision, revision⟩
  refine ⟨db, db.enter id stored, stored, found, ?_, ?_, byText_filed byText' id revision,
    revisionOf_filed fields id revision, ?_, ?_, reads_of_decodeDocument named decoded⟩
  · rw [insert_databases free found accepted, keep, entered]
  · rw [identifierOf_filed]
    exact db.enter_replaces hashable _
  · intro field
    rw [find?_filed_text, identifierOf_filed, revisionOf_filed, holds]
  · intro id' held truthy
    have carried : identifierOf fields = id' := by
      rw [identifierOf, holds, held]
      rfl
    rw [identifierOf_filed, own (carried ▸ truthy), carried]

end Stored

namespace Blog

def counted : Entity :=
  { entity with fields := [.plain "_id" .binaryId, .plain "_rev" .string,
      { Field.plain "title" .string with default := .str "untitled" },
      { Field.plain "visits" .integer with default := .int 0 }] }

end Blog

open Blog

/-- An explicit null is stored and a null identifier is not; the missing count is filled. -/
theorem insert_stores_untitled_post :
    let record : Value := .map [(.str "title", .null), (.str "_id", .null)]
    let inserted := eval (insert "posts" counted record (.list [.str "visits"])) store
    inserted.1 = .ok (.inserted (.str "t") (.str "1-t") [(.str "visits", .int 0)]) ∧
      ∃ db after stored, store.databases.find? (.str "posts") = some db ∧
        inserted.2.databases = store.databases.set (.str "posts") after ∧
        db.Replaces after (.str "t") stored ∧
        stored.fields.find? (.str "title") = some .null ∧
        stored.fields.find? (.str "visits") = some (.int 0) ∧
        stored.fields.find? (.str "_id") = some (.str "t") := by
  intro record inserted
  have prepared : document counted record =
      .ok [(.str "title", .null), (.str "visits", .int 0)] := rfl
  have answered : inserted.1 =
      .ok (.inserted (.str "t") (.str "1-t") [(.str "visits", .int 0)]) := by
    rw [insert_answer rfl found prepared]
    rfl
  have texts : Texts counted := by
    simp [Texts, counted, Field.plain, Value.isText]
  have byText : Keyed.ByText [(Value.str "title", Value.null), (.str "_id", .null)] :=
    ⟨by simp [Value.isText], by simp [Keyed.Distinct, Value.sameKey_str]⟩
  obtain ⟨db, after, stored, found, left, replaces, -, -, holds, -, -⟩ :=
    insert_stores_record texts rfl byText rfl (by simp [Value.isText]) answered
  exact ⟨answered, db, after, stored, found, left, replaces, holds "title", holds "visits",
    holds "_id"⟩

end Write

end DocMapper
