import DocMapper.Proofs.Write.Stored

/-!
# What updates and deletions did

In a reachable store an update succeeds exactly if a live document is at the revision that
the caller read.  It changes the named fields of that document, takes its revision one
generation further and leaves everything else.  A deletion tells whether the document is
gone, whether it had been gone before, or that it is at another revision.
-/

namespace DocMapper

namespace Database

def ShowsRevisions (db : Database) : Prop :=
  ∀ d ∈ db.documents, d.2.fields.find? (.str revField) = some (.str d.2.revision.text)

def HoldsCopyable (db : Database) : Prop :=
  ∀ d ∈ db.documents, Value.copyableEntries d.2.fields = true

theorem stable_showsRevisions : Stable ShowsRevisions :=
  stable_stored (P := fun _ stored =>
      stored.fields.find? (.str revField) = some (.str stored.revision.text))
    fun _ _ _ _ _ _ _ => by simp [filed]

theorem copyable_filed {fields : Entries} {id : Value}
    (copyable : Value.copyableEntries fields = true) (identified : id.copyable = true)
    (revision : Revision) :
    Value.copyableEntries (filed fields id revision) = true :=
  Value.copyable_set (Value.copyable_set copyable rfl identified) rfl rfl

theorem stable_holdsCopyable : Stable HoldsCopyable :=
  stable_stored (P := fun _ stored => Value.copyableEntries stored.fields = true)
    fun _ id _ revision _ hashable copyable =>
      copyable_filed copyable (Value.copyable_of_hashable id hashable) revision

structure Live (db : Database) (id : String) (stored : Stored) : Prop where
  found : db.documents.find? (.str id) = some stored
  named : (identifierOf stored.fields).referent = .str id
  shown : stored.fields.find? (.str revField) = some (.str stored.revision.text)
  copyable : Value.copyableEntries stored.fields = true

end Database

open Database

theorem Memory.Reachable.live {m : Memory} (reachable : m.Reachable) {name : String}
    {db : Database} (found : m.databases.find? (.str name) = some db) {id : String}
    {stored : Stored} (live : db.documents.find? (.str id) = some stored) : db.Live id stored := by
  obtain ⟨k, mem, same⟩ := Keyed.mem_of_find? live
  obtain ⟨id', carried, named⟩ := reachable.selfNamed name db found _ mem
  have identified : identifierOf stored.fields = id' := by
    rw [identifierOf, carried]
    rfl
  refine ⟨live, ?_, reachable.everywhere stable_showsRevisions name db found _ mem,
    reachable.everywhere stable_holdsCopyable name db found _ mem⟩
  rw [identified]
  rw [Value.sameKey_text] at same
  rcases named with rfl | named
  · exact same
  · exact (Value.referent_eq_text_iff named id).1 same

theorem Value.hashable_of_referent {s : String} : ∀ {v : Value}, v.referent = .str s →
    v.hashable = true
  | .viewRef name, h => hashable_of_referent (v := name) h
  | .str _, _ => rfl
  | .null, h | .bool _, h | .int _, h | .float _, h | .bytes _, h | .list _, h | .tuple _, h
  | .map _, h | .readOnly _, h | .record .., h | .recordType _, h | .eq .., h | .isIn .., h
  | .atLeast .., h | .atMost .., h | .compare .., h | .all _, h => nomatch h

theorem Value.truthy_of_referent {s : String} (nonempty : s ≠ "") {v : Value}
    (h : v.referent = .str s) : v.truthy = true := by
  cases v with
  | str t =>
      cases h
      simpa [truthy] using nonempty
  | viewRef name => rfl
  | _ => cases h

namespace Database.Live

variable {db : Database} {id : String} {stored : Stored}

theorem carried (live : db.Live id stored) :
    stored.fields.find? (.str idField) = some (identifierOf stored.fields) := by
  have named := live.named
  rw [identifierOf] at named ⊢
  cases carried : stored.fields.find? (.str idField) with
  | none =>
      rw [carried] at named
      cases named
  | some id' => rfl

theorem revisionOf_eq (live : db.Live id stored) :
    revisionOf stored.fields = .str stored.revision.text := by
  rw [revisionOf, live.shown]
  rfl

theorem found_named (live : db.Live id stored) :
    db.documents.find? (identifierOf stored.fields) = some stored :=
  (Keyed.find?_named _ ((Value.sameKey_text _ id).2 live.named)).trans live.found

end Database.Live

namespace Write

open StoreM Memory

def updated (old : Stored) (changes : Entries) (token : String) : Stored :=
  let revision := Revision.after (some old.revision) token
  ⟨filed (applyChanges old.fields changes) (identifierOf old.fields) revision, revision⟩

structure Merges (old new : Stored) (changes : Entries) : Prop where
  next : new.revision.generation = old.revision.generation + 1
  shown : new.fields.find? (.str revField) = some (.str new.revision.text)
  fields : ∀ field : String, field ≠ revField →
    new.fields.find? (.str field) = (changed? changes field).or (old.fields.find? (.str field))
  /-- Entries under keys that no field is named by. -/
  nameless : ∀ key : Value, (∀ s, key.referent ≠ .str s) →
    new.fields.find? key = old.fields.find? key

theorem find?_applyChanges_nameless (fields changes : Entries) {key : Value}
    (nameless : ∀ s, key.referent ≠ .str s) :
    (applyChanges fields changes).find? key = fields.find? key := by
  induction changes generalizing fields with
  | nil => rfl
  | cons c rest ih => exact (ih _).trans (Keyed.find?_set_nameless fields _ _ nameless)

theorem copyable_applyChanges {fields changes : Entries}
    (copyable : Value.copyableEntries fields = true)
    (refer : ∀ c ∈ changes, c.2.refersCopyably = true) :
    Value.copyableEntries (applyChanges fields changes) = true := by
  induction changes generalizing fields with
  | nil => exact copyable
  | cons c rest ih =>
      obtain ⟨first, others⟩ := List.forall_mem_cons.1 refer
      exact ih (Value.copyable_set copyable rfl (copyable_encodeValue c.2 first)) others

section Updated

variable {m : Memory} {name : String} {db : Database} {entity : Entity} {id rev : String}
  {changes returning : Value} {admitted : Entries} {old : Stored}

theorem identifierOf_applyChanges (texts : Texts entity)
    (admissible : admissibleChanges entity changes = .ok admitted) (fields : Entries) :
    identifierOf (applyChanges fields admitted) = identifierOf fields := by
  rw [identifierOf, find?_applyChanges, (changed?_reserved texts admissible).1]
  rfl

theorem revisionOf_applyChanges (texts : Texts entity)
    (admissible : admissibleChanges entity changes = .ok admitted) (fields : Entries) :
    revisionOf (applyChanges fields admitted) = revisionOf fields := by
  rw [revisionOf, find?_applyChanges, (changed?_reserved texts admissible).2]
  rfl

theorem merges_updated (texts : Texts entity)
    (admissible : admissibleChanges entity changes = .ok admitted) (live : db.Live id old)
    (token : String) : Merges old (updated old admitted token) admitted where
  next := rfl
  shown := by rw [updated, find?_filed_text, if_pos rfl]
  fields field other := by
    rw [updated, find?_filed_text, if_neg other]
    split
    next same =>
      subst same
      rw [(changed?_reserved texts admissible).1, live.carried]
      rfl
    · exact find?_applyChanges _ _ field
  nameless key nameless := by
    rw [updated, filed, Keyed.find?_set_nameless _ _ _ nameless,
      Keyed.find?_set_nameless _ _ _ nameless, find?_applyChanges_nameless _ _ nameless]

theorem save_updated (texts : Texts entity)
    (admissible : admissibleChanges entity changes = .ok admitted)
    (refer : ∀ c ∈ admitted, c.2.refersCopyably = true) (live : db.Live id old)
    (nonempty : id ≠ "") (tokens : Tokens) :
    db.save tokens (.map (applyChanges old.fields admitted)) =
      ⟨.ok (updated old admitted tokens.next).fields,
        db.enter (identifierOf old.fields) (updated old admitted tokens.next), tokens.rest⟩ := by
  have carried := identifierOf_applyChanges texts admissible old.fields
  have presented := revisionOf_applyChanges texts admissible old.fields
  have hashable := Value.hashable_of_referent live.named
  have copyable := copyable_applyChanges live.copyable refer
  have awaited : revisionOf (applyChanges old.fields admitted) =
      db.awaited (identifierOf old.fields) := by
    rw [presented, live.revisionOf_eq, Database.awaited, live.found_named]
  have previous : db.previous? (identifierOf old.fields) = some old.revision := by
    rw [previous?, live.found_named]
  have placed : place tokens (applyChanges old.fields admitted) =
      (identifierOf old.fields, tokens) := by
    rw [place, carried, if_pos (Value.truthy_of_referent nonempty live.named)]
  have files := db.save_files tokens (applyChanges old.fields admitted)
  rw [placed] at files
  generalize db.save tokens (.map (applyChanges old.fields admitted)) = effect at files ⊢
  cases files with
  | odd unhashable => exact absurd hashable (by rw [unhashable]; decide)
  | stale _ refused => exact absurd awaited refused
  | fixed _ uncopyable =>
      rw [Value.copyable, copyable] at uncopyable
      cases uncopyable
  | filed revision next =>
      rw [previous] at next
      subst next
      rfl

/-! ## Updates -/

theorem eval_update_unread {failure : Failure} {m' : Memory} {id rev : Value}
    (admissible : admissibleChanges entity changes = .ok admitted)
    (read : eval (readForUpdate name entity id rev) m = (.error failure, m')) :
    eval (Write.update name entity id rev changes returning) m = (.error failure, m') := by
  rw [Write.update, eval_lift_ok m admissible, eval_bind_error m read]

theorem update_stale (reachable : m.Reachable) (free : m.pendingFailure = none)
    (calm : m.rival = none) (found : m.databases.find? (.str name) = some db)
    (admissible : admissibleChanges entity changes = .ok admitted) (returning : Value)
    (moved : ∀ old, db.documents.find? (.str id) = some old → old.revision.text ≠ rev) :
    ∃ staleness records,
      eval (Write.update name entity (.str id) (.str rev) changes returning) m =
        (.error (Staleness.failure staleness entity (.str id) (.str rev)), logged m records) := by
  cases live : db.documents.find? (.str id) with
  | none =>
      have read := readForUpdate_absent entity free calm found live (.str rev)
      exact ⟨.absent, [], by rw [eval_update_unread admissible read, logged_nil]⟩
  | some old =>
      have read := readForUpdate_live entity free calm found live (.str rev)
      have differs : (revisionOf old.fields).differs (.str rev) = true := by
        rw [(reachable.live found live).revisionOf_eq]
        refine Bool.of_not_eq_false fun same => moved old live ?_
        exact Value.str.inj (differs_text.1 same)
      simp only [differs, if_true] at read
      exact ⟨_, _, eval_update_unread admissible read⟩

theorem update_live (reachable : m.Reachable) (free : m.pendingFailure = none)
    (calm : m.rival = none) (found : m.databases.find? (.str name) = some db)
    (nonempty : id ≠ "") (texts : Texts entity)
    (admissible : admissibleChanges entity changes = .ok admitted)
    (refer : ∀ c ∈ admitted, c.2.refersCopyably = true) (returning : Value)
    (found' : db.documents.find? (.str id) = some old) :
    let new := updated old admitted m.tokens.next
    let (answer, left) :=
      eval (Write.update name entity (.str id) (.str old.revision.text) changes returning) m
    answer = updateAnswer entity returning (.ok new.fields) ∧
      left.databases = m.databases.set (.str name) (db.enter (identifierOf old.fields) new) := by
  have live := reachable.live found found'
  have read := readForUpdate_live entity free calm found found' (.str old.revision.text)
  have same : (revisionOf old.fields).differs (.str old.revision.text) = false :=
    differs_text.2 live.revisionOf_eq
  simp only [same, Bool.false_eq_true, if_false] at read
  have saved := save_updated texts admissible refer live nonempty m.tokens
  have accepted := (saveChanged_ok_iff entity free found (.str id) (.str old.revision.text)
    (applyChanges old.fields admitted) _).2 (congrArg Effect.outcome saved)
  obtain ⟨records, left⟩ := saveChanged_leaves entity free found (.str id)
    (.str old.revision.text) (applyChanges old.fields admitted)
  rw [eval_update_read admissible read]
  dsimp only
  rw [accepted, left, saved]
  exact ⟨rfl, rfl⟩

theorem mem_of_isAmong_texts {s : String} {names : List Value}
    (named : ∀ field ∈ names, field.isText = true) (h : (Value.str s).isAmong names = true) :
    .str s ∈ names := by
  obtain ⟨item, mem, same⟩ := Value.isAmong_iff.1 h
  obtain ⟨t, rfl⟩ := Value.isText_iff.1 (named item mem)
  rw [Value.same_str, beq_iff_eq] at same
  exact same ▸ mem

theorem reads_updated {fields : Entries} {names : List Value} {read : Entries}
    (requested : returning.items = .ok names) (named : ∀ field ∈ names, field.isText = true)
    (decoded : readUpdated entity returning fields = .ok read) :
    Reads entity.fields fields (names ++ [.str revField]) read := by
  have all : ∀ field ∈ names ++ [.str revField], field.isText = true :=
    List.forall_mem_append.2 ⟨named, by simp [Value.isText]⟩
  rw [readUpdated, returnedNames, requested] at decoded
  change decodeDocument entity.fields (.map fields)
    (if (Value.str revField).isAmong names then names else names ++ [.str revField]) = _ at decoded
  split at decoded
  next among =>
    have listed := mem_of_isAmong_texts named among
    obtain ⟨keys, distinct, decodes⟩ := reads_of_decodeDocument named decoded
    refine ⟨fun k => (keys k).trans ?_, distinct, decodes⟩
    rw [List.mem_append, List.mem_singleton]
    exact ⟨.inl, fun h => h.elim id fun same => same ▸ listed⟩
  next => exact reads_of_decodeDocument all decoded

theorem decodeField_text {declared : List Field} {fields : Entries} {name text : String}
    {value : Value} (shown : fields.find? (.str name) = some (.str text))
    (decoded : decodeField declared (.map fields) (.str name) = .ok value) :
    value = .str text := by
  have read : (Value.map fields).get (Value.str name).text = .ok (.str text) :=
    congrArg (fun v => Except.ok (Value.ofOption v)) shown
  obtain ⟨stored, fetched, decoded⟩ := Outcome.bind_eq_ok.1 decoded
  obtain rfl : Value.str text = stored := Except.ok.inj (read.symm.trans fetched)
  obtain ⟨-, -, decoded⟩ := Outcome.bind_eq_ok.1 decoded
  split at decoded
  next field _ =>
    have loaded : field.load (.str text) = .ok value := decoded
    unfold Field.load at loaded
    split at loaded
    · cases loaded
    · cases loaded
    · cases loaded
      rfl
  next =>
    cases decoded
    rfl

theorem find?_reads_rev {declared : List Field} {new : Stored} {names : List Value}
    {read : Entries} (shown : new.fields.find? (.str revField) = some (.str new.revision.text))
    (reads : Reads declared new.fields (names ++ [.str revField]) read) :
    read.find? (.str revField) = some (.str new.revision.text) := by
  have listed := (reads.keys (.str revField)).2 (by simp)
  obtain ⟨⟨k, value⟩, mem, rfl⟩ := List.mem_map.1 listed
  obtain rfl : value = .str new.revision.text := decodeField_text shown (reads.decoded _ mem)
  exact reads.distinct.find?_of_mem mem

end Updated

def DeleteResult.ok : DeleteResult → Bool
  | .refused _ => false
  | _ => true

section Deleted

variable {m : Memory} {name : String} {db : Database} {id rev : String} {old : Stored}

theorem eval_delete_failed (free : m.pendingFailure = none)
    (found : m.databases.find? (.str name) = some db) {failure : Failure}
    (failed : db.delete m.tokens (.str id) (.str rev) = .fail failure db m.tokens) :
    eval (Memory.delete name (.str id) (.str rev)) m = (.error failure, m) := by
  have same : m.keep name (db.delete m.tokens (.str id) (.str rev)) = m := by
    rw [failed]
    exact keep_eq_self found rfl rfl
  rw [eval_delete free found, same, failed]
  rfl

theorem delete_absent (entity : Entity) (free : m.pendingFailure = none)
    (found : m.databases.find? (.str name) = some db)
    (absent : db.documents.find? (.str id) = none) (rev : String) :
    ∃ records, eval (Write.delete name entity (.str id) (.str rev)) m =
      (.ok .alreadyDeleted, logged m records) := by
  have failed : ∃ reason, db.delete m.tokens (.str id) (.str rev) =
      .fail (notFound (.str id) reason) db m.tokens := by
    rw [Database.delete, current_text, absent]
    exact ⟨_, rfl⟩
  obtain ⟨reason, failed⟩ := failed
  rw [Write.delete, eval_tryCatch, eval_bind_error m (eval_delete_failed free found failed)]
  exact ⟨_, rfl⟩

theorem delete_moved (entity : Entity) (free : m.pendingFailure = none)
    (found : m.databases.find? (.str name) = some db)
    (live : db.documents.find? (.str id) = some old) (moved : old.revision.text ≠ rev) :
    ∃ reason records, eval (Write.delete name entity (.str id) (.str rev)) m =
      (.ok (.refused reason), logged m records) := by
  have differs : (Value.str old.revision.text).differs (.str rev) = true :=
    Bool.of_not_eq_false fun same => moved (Value.str.inj (text_differs.1 same)).symm
  have failed : db.delete m.tokens (.str id) (.str rev) =
      .fail (conflict (.str id)) db m.tokens := by
    rw [Database.delete, current_text, live]
    exact if_pos differs
  rw [Write.delete, eval_tryCatch, eval_bind_error m (eval_delete_failed free found failed)]
  exact ⟨_, _, rfl⟩

theorem delete_live (entity : Entity) (free : m.pendingFailure = none)
    (found : m.databases.find? (.str name) = some db)
    (live : db.documents.find? (.str id) = some old) :
    let revision := Revision.after (some old.revision) m.tokens.next
    let (answer, left) :=
      eval (Write.delete name entity (.str id) (.str old.revision.text)) m
    answer = .ok (.deleted revision.text) ∧
      left.databases = m.databases.set (.str name) (db.bury id revision) := by
  have same : ¬ (Value.str old.revision.text).differs (.str old.revision.text) = true :=
    Bool.eq_false_iff.1 (text_differs.2 rfl)
  have buried : db.delete m.tokens (.str id) (.str old.revision.text) =
      ⟨.ok (Revision.after (some old.revision) m.tokens.next),
        db.bury id (Revision.after (some old.revision) m.tokens.next), m.tokens.rest⟩ := by
    rw [Database.delete, current_text, live]
    exact if_neg same
  have step := eval_delete free found (.str id) (.str old.revision.text)
  rw [buried] at step
  rw [Write.delete, eval_tryCatch, eval_bind_ok m step]
  exact ⟨rfl, rfl⟩

end Deleted

/-- Changes that fit the entity and can be stored, and returned fields that can be decoded
from the document that they make. -/
structure ValidUpdate (db : Database) (token : String) (entity : Entity) (id rev : String)
    (changes returning : Value) (admitted : Entries) (names : List Value) : Prop where
  admissible : admissibleChanges entity changes = .ok admitted
  refer : ∀ c ∈ admitted, c.2.refersCopyably = true
  requested : returning.items = .ok names
  named : ∀ field ∈ names, field.isText = true
  decodable : ∀ old, db.documents.find? (.str id) = some old → old.revision.text = rev →
    ∃ read, readUpdated entity returning (updated old admitted token).fields = .ok read

/-- What an update to the admitted changes says by how it ends: it succeeds exactly if the
live document is at the revision, and then the document has its changes and a revision one
generation further, which is returned with the requested fields; otherwise the entry is
stale and nothing changes. -/
structure UpdateTells (m : Memory) (name : String) (db : Database) (entity : Entity)
    (id rev : String) (admitted : Entries) (names : List Value) (answer : Outcome UpdateResult)
    (left : Memory) : Prop where
  succeeds : (∃ result, answer = .ok result) ↔
    ∃ old, db.documents.find? (.str id) = some old ∧ old.revision.text = rev
  merged : ∀ result, answer = .ok result → ∃ old new after,
    db.documents.find? (.str id) = some old ∧
    left.databases = m.databases.set (.str name) after ∧ db.Replaces after (.str id) new ∧
    Merges old new admitted ∧ result.rev = .str new.revision.text ∧
    Reads entity.fields new.fields (names ++ [.str revField]) result.returned ∧
    result.returned.find? (.str revField) = some result.rev
  stale : ∀ failure, answer = .error failure → ∃ staleness records,
    failure = Staleness.failure staleness entity (.str id) (.str rev) ∧ left = logged m records

/-- What a deletion says by its result: whether the document is gone, whether it had been
gone before, or that it is at another revision and stays. -/
structure DeletionTells (m : Memory) (db after : Database) (id rev : String)
    (result : DeleteResult) (left : Memory) : Prop where
  gone : result.ok = true ↔ after.documents.find? (.str id) = none
  absent : result = .alreadyDeleted ↔ db.documents.find? (.str id) = none
  moved : result.ok = false ↔
    ∃ old, db.documents.find? (.str id) = some old ∧ old.revision.text ≠ rev
  unchanged : result = .alreadyDeleted ∨ result.ok = false → ∃ records, left = logged m records
  others : ∀ d : Value × Stored, d.1.sameKey (.str id) = false →
    (d ∈ after.documents ↔ d ∈ db.documents)

section Told

variable {m : Memory} {name : String} {db : Database} {id rev : String} {entity : Entity}
  (reachable : m.Reachable) (free : m.pendingFailure = none) (calm : m.rival = none)
  (found : m.databases.find? (.str name) = some db)

include free found

theorem delete_tells :
    let (answer, left) := eval (Write.delete name entity (.str id) (.str rev)) m
    ∃ result after, answer = .ok result ∧ left.databases = m.databases.set (.str name) after ∧
      DeletionTells m db after id rev result left := by
  have unchanged : m.databases = m.databases.set (.str name) db :=
    (Keyed.set_eq_self found).symm
  cases live : db.documents.find? (.str id) with
  | none =>
      obtain ⟨records, deleted⟩ := delete_absent entity free found live rev
      rw [deleted]
      exact ⟨.alreadyDeleted, db, rfl, unchanged, by simp [DeleteResult.ok, live], by simp [live],
        by simp [DeleteResult.ok, live], fun _ => ⟨records, rfl⟩, fun _ _ => Iff.rfl⟩
  | some old =>
      by_cases same : old.revision.text = rev
      · subst same
        obtain ⟨answered, left⟩ := delete_live entity free found live
        refine ⟨_, _, answered, left, ?_, ?_, ?_, ?_, ?_⟩
        · simp [DeleteResult.ok, bury, Keyed.find?_erase, Value.sameKey_str]
        · simp [live]
        · simp [DeleteResult.ok, live]
        · simp [DeleteResult.ok]
        · intro d apart
          simp [bury, Keyed.erase, apart]
      · obtain ⟨reason, records, deleted⟩ := delete_moved entity free found live same
        rw [deleted]
        exact ⟨.refused reason, db, rfl, unchanged, by simp [DeleteResult.ok, live],
          by simp [live], by simp [DeleteResult.ok, live, same], fun _ => ⟨records, rfl⟩,
          fun _ _ => Iff.rfl⟩

include reachable calm

theorem update_tells (nonempty : id ≠ "") (texts : Texts entity) {changes returning : Value}
    {admitted : Entries} {names : List Value}
    (valid : ValidUpdate db m.tokens.next entity id rev changes returning admitted names) :
    let (answer, left) :=
      eval (Write.update name entity (.str id) (.str rev) changes returning) m
    UpdateTells m name db entity id rev admitted names answer left := by
  by_cases current : ∃ old, db.documents.find? (.str id) = some old ∧ old.revision.text = rev
  · obtain ⟨old, live, rfl⟩ := current
    have known := reachable.live found live
    obtain ⟨read, decoded⟩ := valid.decodable old live rfl
    obtain ⟨answered, left⟩ := update_live reachable free calm found nonempty texts
      valid.admissible valid.refer returning live
    have merges := merges_updated texts valid.admissible known m.tokens.next
    have hashable := Value.hashable_of_referent known.named
    have reads := reads_updated valid.requested valid.named decoded
    have revised : revisionOf (updated old admitted m.tokens.next).fields =
        .str (updated old admitted m.tokens.next).revision.text := revisionOf_filed ..
    have succeeded := answered.trans (Outcome.bind_eq_ok.2 ⟨_, rfl, Outcome.bind_eq_ok.2
      ⟨read, decoded, rfl⟩⟩)
    refine ⟨iff_of_true ⟨_, succeeded⟩ ⟨old, live, rfl⟩, ?merged, ?stale⟩
    case merged =>
      intro result h
      cases succeeded.symm.trans h
      refine ⟨old, updated old admitted m.tokens.next, _, live, left,
        (db.enter_replaces hashable _).of_named known.named, merges, revised, reads, ?_⟩
      rw [revised]
      exact find?_reads_rev merges.shown reads
    case stale =>
      intro failure h
      cases succeeded.symm.trans h
  · have moved : ∀ old, db.documents.find? (.str id) = some old → old.revision.text ≠ rev :=
      fun old live same => current ⟨old, live, same⟩
    obtain ⟨staleness, records, failed⟩ :=
      update_stale reachable free calm found valid.admissible returning moved
    rw [failed]
    refine ⟨iff_of_false (by rintro ⟨result, h⟩; cases h) current, nofun, ?_⟩
    intro failure h
    cases h
    exact ⟨staleness, records, rfl, rfl⟩

/-- In a reachable store the outcomes of updates with valid changes and of deletions tell
what happened to the document. -/
theorem update_and_delete_tell (nonempty : id ≠ "") (texts : Texts entity) :
    (∀ changes returning admitted names,
      ValidUpdate db m.tokens.next entity id rev changes returning admitted names →
      let (answer, left) :=
        eval (Write.update name entity (.str id) (.str rev) changes returning) m
      UpdateTells m name db entity id rev admitted names answer left) ∧
    let (answer, left) := eval (Write.delete name entity (.str id) (.str rev)) m
    ∃ result after, answer = .ok result ∧ left.databases = m.databases.set (.str name) after ∧
      DeletionTells m db after id rev result left :=
  ⟨fun _ _ _ _ valid => update_tells reachable free calm found nonempty texts valid,
    delete_tells free found⟩

end Told

namespace Blog

def retitled : Value := .map [(.str "title", .str "two")]

theorem reachable : store.Reachable := ⟨_, operations, rfl⟩

theorem retitles (rev : String) :
    ValidUpdate ⟨[(.str "a", stored)], [], []⟩ "t" entity "a" rev retitled (.list [.str "title"])
      [(.str "title", .str "two")] [.str "title"] where
  admissible := rfl
  refer := by simp [Value.refersCopyably]
  requested := rfl
  named := by simp [Value.isText]
  decodable old live _ := by
    obtain rfl : stored = old := Option.some.inj live
    exact ⟨_, rfl⟩

end Blog

open Blog

/-- The post is retitled and deleted at its revision, and neither at another one. -/
theorem update_and_delete_tell_of_post :
    let update (rev : String) :=
      eval (Write.update "posts" entity (.str "a") (.str rev) retitled (.list [.str "title"])) store
    let delete (rev : String) := eval (Write.delete "posts" entity (.str "a") (.str rev)) store
    (∃ result new after, (update "1-t").1 = .ok result ∧
      (update "1-t").2.databases = store.databases.set (.str "posts") after ∧
      after.documents.find? (.str "a") = some new ∧
      new.fields.find? (.str "title") = some (.str "two") ∧ new.revision.generation = 2) ∧
    (∀ result, (update "1-x").1 ≠ .ok result) ∧
    (∃ result, (delete "1-t").1 = .ok result ∧ result.ok = true) ∧
    ∃ result, (delete "1-x").1 = .ok result ∧ result.ok = false := by
  intro update delete
  have texts : Texts entity := by simp [Texts, entity, Field.plain, Value.isText]
  have tells (rev : String) :=
    @update_and_delete_tell store "posts" _ "a" rev entity reachable rfl rfl found (by decide) texts
  have live : Keyed.find? [(Value.str "a", stored)] (.str "a") = some stored := rfl
  have moved : stored.revision.text ≠ "1-x" := by decide
  have current := (tells "1-t").1 _ _ _ _ (retitles "1-t")
  have stale := (tells "1-x").1 _ _ _ _ (retitles "1-x")
  obtain ⟨result, updated⟩ := current.succeeds.2 ⟨stored, live, rfl⟩
  obtain ⟨old, new, after, found', left, replaces, merges, -⟩ := current.merged result updated
  obtain rfl : stored = old := Option.some.inj found'
  obtain ⟨gone, _, deleted, -, tellsGone⟩ := (tells "1-t").2
  obtain ⟨kept, _, refused, -, tellsKept⟩ := (tells "1-x").2
  refine ⟨⟨result, new, after, updated, left, replaces.now,
    merges.fields "title" (by decide), merges.next⟩, fun result h => ?_, ⟨gone, deleted, ?_⟩,
    ⟨kept, refused, tellsKept.moved.2 ⟨stored, live, moved⟩⟩⟩
  · obtain ⟨old, found', same⟩ := stale.succeeds.1 ⟨result, h⟩
    obtain rfl : stored = old := Option.some.inj found'
    exact moved same
  · refine Bool.of_not_eq_false fun refused => ?_
    obtain ⟨old, found', other⟩ := tellsGone.moved.1 refused
    obtain rfl : stored = old := Option.some.inj found'
    exact other rfl

end Write

end DocMapper
