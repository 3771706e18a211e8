import DocMapper.Proofs.Store.Filing
import DocMapper.Proofs.Store.Reachable
import DocMapper.Proofs.Write.Prepared

/-!
# What an insertion answers

The store decides whether an identifier is taken, by the revision that the document
presents: none for an identifier that is free, and that of the live document for one that
is taken.  An insertion therefore finds a taken identifier unless its record happens to
carry the live revision, and calls a free one taken if the record carries any revision.
-/

namespace DocMapper.Write

open StoreM Memory Database

section Prepared

variable {entity : Entity} {fields fields' : Document} {s : String} {v : Value}

theorem kept_withoutUnset (name : String) (h : fields.find? (.str s) = some v)
    (given : v ≠ .null) : (withoutUnset fields name).find? (.str s) = some v := by
  have set : v.isNull = false := Bool.eq_false_iff.2 fun unset => given (Value.isNull_iff.1 unset)
  rw [find?_withoutUnset, h, Option.filter_some, if_pos]
  rw [set]
  rfl

theorem kept_withDefault {field : Field} (filled : withDefault fields field = .ok fields')
    (h : fields.find? (.str s) = some v) : fields'.find? (.str s) = some v := by
  obtain ⟨-, rfl⟩ | ⟨-, absent, -, rfl⟩ := withDefault_ok filled
  · exact h
  · rw [Keyed.find?_set, if_neg, h]
    intro named
    rw [Keyed.has_of_text h named] at absent
    cases absent

theorem kept_prepare {record : Value} {encoded : Document}
    (encodes : encodeRecord record = .ok encoded) (prepared : prepare entity record = .ok fields)
    (h : encoded.find? (.str s) = some v) (given : v ≠ .null) :
    fields.find? (.str s) = some v := by
  obtain ⟨encoded', hencoded, prepared⟩ := Outcome.bind_eq_ok.1 prepared
  cases encodes.symm.trans hencoded
  have start := kept_withoutUnset revField (kept_withoutUnset idField h given) given
  exact Outcome.foldlM_keeps (motive := fun fields => fields.find? (.str s) = some v)
    prepared start fun _ _ _ _ filled => kept_withDefault filled

end Prepared

section Taken

variable {m : Memory} {name : String} {db : Database} {entity : Entity} {record : Value}
  {fields : Document}

theorem insert_answer (free : m.pendingFailure = none)
    (found : m.databases.find? (.str name) = some db)
    (h : document entity record = .ok fields) (returning : Value) :
    (eval (insert name entity record returning) m).1 =
      insertAnswer entity fields returning (db.save m.tokens (.map fields)).outcome := by
  obtain ⟨records, answered⟩ := eval_insertPrepared_found free found entity fields returning
  rw [eval_insert_valid m name h, answered]

theorem insert_databases (free : m.pendingFailure = none)
    (found : m.databases.find? (.str name) = some db)
    (h : document entity record = .ok fields) (returning : Value) :
    (eval (insert name entity record returning) m).2.databases =
      (m.keep name (db.save m.tokens (.map fields))).databases := by
  obtain ⟨records, left⟩ := insert_leaves free found h returning
  rw [left]
  rfl

theorem place_of_named (tokens : Tokens) {id : String}
    (h : fields.find? (.str idField) = some (.str id)) (nonempty : id ≠ "") :
    place tokens fields = (.str id, tokens) := by
  have carried : identifierOf fields = .str id := by
    rw [identifierOf, h]
    rfl
  rw [place, carried, if_pos]
  simpa [Value.truthy] using nonempty

theorem answer_taken (entity : Entity) (fields : Document) (returning id : Value) :
    insertAnswer entity fields returning (.error (conflict id)) =
      .ok (.taken (identifierOf fields) entity.idIndex) := rfl

theorem answer_inserted (entity : Entity) (fields : Document) (returning : Value)
    (saved : Entries) :
    insertAnswer entity fields returning (.ok saved) = (do
      return .inserted (identifierOf saved) (revisionOf saved)
        (← returned entity saved returning)) := rfl

theorem taken_iff {tokens : Tokens} {id : Value} {effect : Effect Entries}
    (files : Files db tokens id fields effect) (hashable : id.hashable = true)
    (carried : identifierOf fields = id) (returning : Value) :
    insertAnswer entity fields returning effect.outcome = .ok (.taken id entity.idIndex) ↔
      revisionOf fields ≠ db.awaited id := by
  cases files with
  | odd unhashable => exact absurd hashable (by rw [unhashable]; decide)
  | stale _ refused =>
      rw [Effect.fail, answer_taken, carried]
      exact iff_of_true rfl refused
  | fixed admitted uncopyable =>
      exact iff_of_false (by intro h; cases h) (not_not.2 admitted.presented)
  | filed revision next admitted copyable =>
      refine iff_of_false ?_ (not_not.2 admitted.presented)
      rw [answer_inserted]
      intro h
      obtain ⟨read, -, h⟩ := Outcome.bind_eq_ok.1 h
      cases h

theorem inserted_iff {tokens : Tokens} {id : Value} {effect : Effect Entries}
    (files : Files db tokens id fields effect) (hashable : id.hashable = true)
    (returning : Value) :
    (∃ rev read, insertAnswer entity fields returning effect.outcome =
        .ok (.inserted id rev read)) ↔
      revisionOf fields = db.awaited id ∧ (Value.map fields).copyable = true ∧
        ∃ read, returned entity (filed fields id (.after (db.previous? id) tokens.next))
          returning = .ok read := by
  cases files with
  | odd unhashable => exact absurd hashable (by rw [unhashable]; decide)
  | stale _ refused => exact iff_of_false (by rintro ⟨_, _, h⟩; cases h) fun h => refused h.1
  | fixed admitted uncopyable =>
      refine iff_of_false (by rintro ⟨_, _, h⟩; cases h) fun h => ?_
      rw [uncopyable] at h
      cases h.2.1
  | filed revision next admitted copyable =>
      rw [answer_inserted, identifierOf_filed, ← next]
      constructor
      · rintro ⟨rev, read, h⟩
        obtain ⟨read', hread, -⟩ := Outcome.bind_eq_ok.1 h
        exact ⟨admitted.presented, copyable, read', hread⟩
      · rintro ⟨-, -, read, hread⟩
        exact ⟨_, read, Outcome.bind_eq_ok.2 ⟨read, hread, rfl⟩⟩

theorem refused_effect {tokens : Tokens} {id : Value} {effect : Effect Entries}
    (files : Files db tokens id fields effect) (hashable : id.hashable = true)
    (refused : revisionOf fields ≠ db.awaited id) :
    effect = .fail (conflict id) db tokens := by
  cases files with
  | odd unhashable => exact absurd hashable (by rw [unhashable]; decide)
  | stale => rfl
  | fixed admitted | filed _ _ admitted => exact absurd admitted.presented refused

/-- An insertion under a taken identifier answers that it is taken, and leaves the stored
document, exactly if its document does not present the live revision; under a free one it
inserts exactly if its document presents none and can be copied, and what it is to return
can be read. -/
theorem insert_finds_taken_iff {encoded : Document} {id : String} {returning : Value}
    (free : m.pendingFailure = none) (found : m.databases.find? (.str name) = some db)
    (valid : validate entity record false = .ok ())
    (encodes : encodeRecord record = .ok encoded)
    (carried : encoded.find? (.str idField) = some (.str id)) (nonempty : id ≠ "") :
    let (answer, left) := eval (insert name entity record returning) m
    (∀ stored, db.documents.find? (.str id) = some stored →
      (answer = .ok (.taken (.str id) entity.idIndex) ↔
        ∃ fields, prepare entity record = .ok fields ∧
          revisionOf fields ≠ .str stored.revision.text) ∧
      (answer = .ok (.taken (.str id) entity.idIndex) → left.databases = m.databases)) ∧
    (db.documents.find? (.str id) = none →
      ((∃ rev read, answer = .ok (.inserted (.str id) rev read)) ↔
        ∃ fields, prepare entity record = .ok fields ∧ revisionOf fields = .null ∧
          (Value.map fields).copyable = true ∧
          ∃ read, returned entity (filed fields (.str id)
            (.after (db.tombstones.find? (.str id)) m.tokens.next)) returning = .ok read)) := by
  have accepted : document entity record = prepare entity record := by
    rw [document, valid]
    rfl
  cases prepared : prepare entity record with
  | error failure =>
      rw [eval_insert_invalid m name (accepted.trans prepared)]
      simp
  | ok fields =>
      have given := insert_answer free found (accepted.trans prepared) returning
      have left := insert_databases free found (accepted.trans prepared) returning
      have named := kept_prepare encodes prepared carried (by simp)
      have files := db.save_files m.tokens fields
      rw [place_of_named m.tokens named nonempty] at files
      have identified : identifierOf fields = .str id := by
        rw [identifierOf, named]
        rfl
      -- The one document that was prepared is the one that the conditions speak of.
      simp only [Except.ok.injEq, exists_eq_left']
      rw [given, left, taken_iff files rfl identified, inserted_iff files rfl]
      constructor
      · intro stored live
        have awaited : db.awaited (.str id) = .str stored.revision.text := by
          rw [Database.awaited, live]
        rw [awaited]
        refine ⟨Iff.rfl, fun refused => ?_⟩
        rw [refused_effect files rfl (awaited ▸ refused), keep_eq_self found rfl rfl]
      · intro absent
        rw [Database.awaited, Database.previous?, absent]

end Taken

namespace Blog

def entity : Entity :=
  ⟨.str "Post", .str "posts",
    [.plain "_id" .binaryId, .plain "_rev" .string, .plain "title" .string], [], .null⟩

def operations : List Memory.Operation :=
  [.createDatabase "posts",
    .save "posts" (.map [(.str "_id", .str "a"), (.str "title", .str "one")])]

def store : Memory := operations.foldl Memory.Operation.leaves (.start ⟨fun _ => "t", 0⟩)

def stored : Stored :=
  ⟨[(.str "_id", .str "a"), (.str "title", .str "one"), (.str "_rev", .str "1-t")], ⟨1, "t"⟩⟩

theorem found : store.databases.find? (.str "posts") = some ⟨[(.str "a", stored)], [], []⟩ := by
  simp only [store, operations, stored]
  rfl

end Blog

open Blog

theorem insert_finds_live_post :
    let record : Value := .map [(.str "_id", .str "a"), (.str "title", .str "two")]
    let (answer, left) := eval (insert "posts" entity record (.list [])) store
    answer = .ok (.taken (.str "a") "posts_id_index") ∧ left.databases = store.databases := by
  intro record
  have presents : ∃ fields, prepare entity record = .ok fields ∧
      revisionOf fields ≠ .str stored.revision.text :=
    ⟨[(.str "_id", .str "a"), (.str "title", .str "two")], rfl, nofun⟩
  have valid : validate entity record false = .ok () := rfl
  obtain ⟨taken, -⟩ := @insert_finds_taken_iff store "posts" _ entity record _ "a" (.list [])
    rfl found valid rfl rfl (by decide)
  obtain ⟨answered, unchanged⟩ := taken stored rfl
  exact ⟨answered.2 presents, unchanged (answered.2 presents)⟩

/-- A record that carries the live revision overwrites the live document, and one that
carries any revision counts as taken although its identifier is free. -/
theorem insert_overwrites_live_post :
    let overwriting : Value :=
      .map [(.str "_id", .str "a"), (.str "_rev", .str "1-t"), (.str "title", .str "two")]
    let fresh : Value := .map [(.str "_id", .str "b"), (.str "_rev", .str "1-x")]
    let overwritten := eval (insert "posts" entity overwriting (.list [])) store
    store.Reachable ∧ store.pendingFailure = none ∧
      store.databases.find? (.str "posts") = some ⟨[(.str "a", stored)], [], []⟩ ∧
      validate entity overwriting false = .ok () ∧ validate entity fresh false = .ok () ∧
      overwritten.1 = .ok (.inserted (.str "a") (.str "2-t") []) ∧
      (∃ db written, overwritten.2.databases.find? (.str "posts") = some db ∧
        db.documents.find? (.str "a") = some written ∧
        written.fields.find? (.str "title") = some (.str "two")) ∧
      (eval (insert "posts" entity fresh (.list [])) store).1 =
        .ok (.taken (.str "b") "posts_id_index") := by
  intro overwriting fresh overwritten
  have overwrites : document entity overwriting = .ok [(.str "_id", .str "a"),
      (.str "_rev", .str "1-t"), (.str "title", .str "two")] := rfl
  have prepared : document entity fresh = .ok [(.str "_id", .str "b"), (.str "_rev", .str "1-x")] :=
    rfl
  refine ⟨⟨_, operations, rfl⟩, rfl, found, rfl, rfl, ?_, ?_, ?_⟩
  · rw [insert_answer rfl found overwrites]
    rfl
  · rw [insert_databases rfl found overwrites, keep_databases]
    exact ⟨_, _, rfl, rfl, rfl⟩
  · rw [insert_answer rfl found prepared]
    rfl

end DocMapper.Write
