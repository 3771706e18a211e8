import DocMapper.Proofs.Store.Touched
import DocMapper.Proofs.Write.Batch

/-!
# What a failed write leaves

A write hands documents to the store and then reads back what it is to return.  If it
fails, the databases are as they were exactly if the store took none of the documents; if
every document can be filed and read back, a write that fails has handed the store nothing
that it took.
-/

namespace DocMapper.Write

open StoreM Memory Database

inductive Mutation where
  | insert (record : Value)
  | insertAll (records : Value)
  | update (id rev changes : Value)

namespace Mutation

def perform (name : String) (entity : Entity) (returning : Value) : Mutation → StoreM Unit
  | .insert record => do let _ ← Write.insert name entity record returning
  | .insertAll records => do let _ ← Write.insertAll name entity records returning
  | .update id rev changes => do let _ ← Write.update name entity id rev changes returning

def documents (entity : Entity) (db : Database) : Mutation → Outcome (List Document)
  | .insert record => do return [← document entity record]
  | .insertAll records => prepareAll entity records
  | .update id rev changes => do
      let changes ← admissibleChanges entity changes
      let current ← db.fetch id
      if (revisionOf current).differs rev then .error (conflict id)
      else return [applyChanges current changes]

def read (entity : Entity) (returning : Value) (saved : Entries) : Mutation → Outcome Entries
  | .insert _ => returned entity saved returning
  | .insertAll _ => if returning.isNull then .ok [] else returned entity saved returning
  | .update .. => readUpdated entity returning saved

/-- Nobody else writes between the two steps of an update. -/
def Calm (m : Memory) : Mutation → Prop
  | .update .. => m.rival = none
  | _ => True

end Mutation

section Left

variable {m : Memory} {name : String} {db : Database} {entity : Entity} {id rev : Value}

def Closed (m : Memory) (name : String) : Prop :=
  m.pendingFailure = none → m.databases.find? (.str name) = none

theorem call_closed {α : Type} {call : StoreM α} (isCall : Memory.Call call)
    (closed : Closed m name)
    (misses : m.pendingFailure = none → m.databases.find? (.str name) = none →
      eval call m = (.error (missingDatabase name), m)) :
    ∃ failure, (eval call m).1 = .error failure ∧
      (eval call m).2.databases = m.databases := by
  cases pending : m.pendingFailure with
  | none =>
      rw [misses pending (closed pending)]
      exact ⟨_, rfl, rfl⟩
  | some fault =>
      rw [isCall.eval_pending pending]
      exact ⟨_, rfl, rfl⟩

end Left

/-! ## Documents that reach the store -/

structure Mutation.Hands (op : Mutation) (m : Memory) (name : String) (entity : Entity)
    (db : Database) (documents : List Document) : Prop where
  free : m.pendingFailure = none
  found : m.databases.find? (.str name) = some db
  documents : op.documents entity db = .ok documents

section Handed

variable {m : Memory} {name : String} {db : Database} {entity : Entity} {returning : Value}
  {documents : List Document}

theorem saveBatch_single (db : Database) (tokens : Tokens) (fields : Document) :
    (db.saveBatch tokens ([fields].map .map)).database =
      (db.save tokens (.map fields)).database := by
  rw [List.map_singleton, saveBatch_map rfl]
  cases itemOf fields (db.save tokens (.map fields)).outcome <;> rfl

theorem insert_handed {record : Value}
    (hands : (Mutation.insert record).Hands m name entity db documents) :
    (eval (Write.insert name entity record returning) m).2.databases =
      m.databases.set (.str name) (db.saveBatch m.tokens (documents.map .map)).database := by
  obtain ⟨free, found, handed⟩ := hands
  obtain ⟨fields, prepared, h⟩ := Outcome.bind_eq_ok.1 handed
  cases h
  rw [insert_databases free found prepared, saveBatch_single]
  rfl

theorem insertAll_handed {records : Value}
    (hands : (Mutation.insertAll records).Hands m name entity db documents) :
    (eval (Write.insertAll name entity records returning) m).2.databases =
      m.databases.set (.str name) (db.saveBatch m.tokens (documents.map .map)).database := by
  obtain ⟨free, found, prepared⟩ := hands
  rw [eval_insertAll prepared]
  cases documents with
  | nil => exact (Keyed.set_eq_self found).symm
  | cons fields rest =>
      obtain ⟨logs, summarized⟩ := eval_insertAllPrepared m name entity (fields :: rest) returning
      rw [List.isEmpty_cons, if_neg Bool.false_ne_true, summarized, eval_saveBatch free found]
      rfl

theorem read_handed {id rev changes : Value} (calm : m.rival = none)
    (hands : (Mutation.update id rev changes).Hands m name entity db documents) :
    ∃ admitted current records, admissibleChanges entity changes = .ok admitted ∧
      documents = [applyChanges current admitted] ∧
      eval (readForUpdate name entity id rev) m = (.ok current, logged m records) := by
  obtain ⟨free, found, handed⟩ := hands
  obtain ⟨admitted, admissible, handed⟩ := Outcome.bind_eq_ok.1 handed
  obtain ⟨current, fetched, handed⟩ := Outcome.bind_eq_ok.1 handed
  have answered := eval_fetch free calm found id
  cases moved : (revisionOf current).differs rev with
  | true =>
      rw [moved] at handed
      cases handed
  | false =>
      rw [moved] at handed
      cases handed
      obtain ⟨records, left⟩ := readForUpdate_leaves name entity id rev m
      have read : (eval (readForUpdate name entity id rev) m).1 = .ok current :=
        readForUpdate_ok_iff.2 ⟨(congrArg Prod.fst answered).trans fetched, moved⟩
      rw [answered] at left
      exact ⟨admitted, current, records, admissible, rfl, Prod.ext read left⟩

theorem update_handed {id rev changes : Value} (calm : m.rival = none)
    (hands : (Mutation.update id rev changes).Hands m name entity db documents) :
    (eval (Write.update name entity id rev changes returning) m).2.databases =
      m.databases.set (.str name) (db.saveBatch m.tokens (documents.map .map)).database := by
  obtain ⟨admitted, current, records, admissible, rfl, read⟩ := read_handed calm hands
  obtain ⟨others, left⟩ := saveChanged_leaves (m := logged m records) entity hands.free
    hands.found id rev (applyChanges current admitted)
  rw [eval_update_read admissible read, saveBatch_single]
  exact congrArg Memory.databases left

end Handed

section Unhanded

variable {m : Memory} {name : String} {entity : Entity} {returning : Value}

def Mutation.Unhanded (op : Mutation) (m : Memory) (name : String) (entity : Entity) : Prop :=
  ∀ db documents, ¬ op.Hands m name entity db documents

theorem Mutation.Unhanded.closed {op : Mutation} (unhanded : op.Unhanded m name entity)
    {documents : List Document} (prepared : ∀ db, op.documents entity db = .ok documents) :
    Closed m name := by
  intro free
  cases found : m.databases.find? (.str name) with
  | none => rfl
  | some db => exact absurd ⟨free, found, prepared db⟩ (unhanded db documents)

theorem insert_unhanded {record : Value}
    (unhanded : (Mutation.insert record).Unhanded m name entity) :
    (eval (Write.insert name entity record returning) m).2.databases = m.databases := by
  cases prepared : document entity record with
  | error failure => rw [eval_insert_invalid m name prepared]
  | ok fields =>
      have handed : ∀ db, (Mutation.insert record).documents entity db = .ok [fields] :=
        fun db => Outcome.bind_eq_ok.2 ⟨fields, prepared, rfl⟩
      obtain ⟨failure, -, left⟩ := call_closed (.save name (.map fields)) (unhanded.closed handed)
        fun free missing => eval_save_missing free missing _
      obtain ⟨records, inserted⟩ := eval_insertPrepared m name entity fields returning
      rw [eval_insert_valid m name prepared, inserted]
      exact left

theorem insertAll_unhanded {records : Value}
    (unhanded : (Mutation.insertAll records).Unhanded m name entity) :
    (eval (Write.insertAll name entity records returning) m).2.databases = m.databases := by
  cases prepared : prepareAll entity records with
  | error failure =>
      rw [Write.insertAll, eval_lift_error m prepared]
  | ok documents =>
      obtain ⟨failure, -, left⟩ := call_closed (.saveBatch name (.list (documents.map .map)))
        (unhanded.closed fun db => prepared)
        fun free missing => eval_saveBatch_missing free missing _
      obtain ⟨logs, summarized⟩ := eval_insertAllPrepared m name entity documents returning
      rw [eval_insertAll prepared]
      split
      · rfl
      · rw [summarized]
        exact left

theorem fetch_unhanded {id rev changes : Value} {admitted : Entries} (calm : m.rival = none)
    (admissible : admissibleChanges entity changes = .ok admitted)
    (unhanded : (Mutation.update id rev changes).Unhanded m name entity) :
    (eval (Memory.fetch name id) m).2.databases = m.databases ∧
      ∀ current, (eval (Memory.fetch name id) m).1 = .ok current →
        (revisionOf current).differs rev = true := by
  by_cases closed : Closed m name
  · obtain ⟨failure, failed, left⟩ := call_closed (.fetch name id) closed
      fun free missing => eval_fetch_missing free missing id
    refine ⟨left, fun current h => ?_⟩
    rw [failed] at h
    cases h
  · obtain ⟨free, present⟩ := Classical.not_imp.1 closed
    obtain ⟨db, found⟩ := Option.ne_none_iff_exists'.1 present
    rw [eval_fetch free calm found id]
    refine ⟨rfl, fun current fetched => ?_⟩
    cases moved : (revisionOf current).differs rev with
    | true => rfl
    | false =>
        have handed : (Mutation.update id rev changes).documents entity db =
            .ok [applyChanges current admitted] := by
          refine Outcome.bind_eq_ok.2 ⟨admitted, admissible, Outcome.bind_eq_ok.2
            ⟨current, fetched, ?_⟩⟩
          rw [moved]
          rfl
        exact absurd ⟨free, found, handed⟩ (unhanded db _)

theorem update_unhanded {id rev changes : Value} (calm : m.rival = none)
    (unhanded : (Mutation.update id rev changes).Unhanded m name entity) :
    (eval (Write.update name entity id rev changes returning) m).2.databases = m.databases := by
  cases admissible : admissibleChanges entity changes with
  | error failure =>
      rw [Write.update, eval_lift_error m admissible]
  | ok admitted =>
      obtain ⟨untouched, moved⟩ := fetch_unhanded calm admissible unhanded
      obtain ⟨logs, left⟩ := readForUpdate_leaves name entity id rev m
      rcases read : eval (readForUpdate name entity id rev) m with ⟨failure | current, m'⟩
      · rw [Write.update, eval_lift_ok m admissible, eval_bind_error m read]
        rw [read] at left
        exact (congrArg Memory.databases left).trans untouched
      · obtain ⟨fetched, same⟩ := readForUpdate_ok_iff.1 (congrArg Prod.fst read)
        rw [moved current fetched] at same
        cases same

end Unhanded

section Performed

variable {op : Mutation} {m : Memory} {name : String} {db : Database} {entity : Entity}
  {returning : Value} {documents : List Document}

theorem perform_handed (calm : op.Calm m) (hands : op.Hands m name entity db documents) :
    (eval (op.perform name entity returning) m).2.databases =
      m.databases.set (.str name) (db.saveBatch m.tokens (documents.map .map)).database := by
  cases op with
  | insert record =>
      rw [Mutation.perform, eval_then_pure]
      exact insert_handed hands
  | insertAll records =>
      rw [Mutation.perform, eval_then_pure]
      exact insertAll_handed hands
  | update id rev changes =>
      rw [Mutation.perform, eval_then_pure]
      exact update_handed calm hands

theorem perform_unhanded (calm : op.Calm m) (unhanded : op.Unhanded m name entity) :
    (eval (op.perform name entity returning) m).2.databases = m.databases := by
  cases op with
  | insert record =>
      rw [Mutation.perform, eval_then_pure]
      exact insert_unhanded unhanded
  | insertAll records =>
      rw [Mutation.perform, eval_then_pure]
      exact insertAll_unhanded unhanded
  | update id rev changes =>
      rw [Mutation.perform, eval_then_pure]
      exact update_unhanded calm unhanded

/-- A mutation leaves the databases as they were exactly if it hands no database a document
that is taken. -/
theorem perform_databases_iff (calm : op.Calm m) :
    (eval (op.perform name entity returning) m).2.databases = m.databases ↔
      ∀ db documents, op.Hands m name entity db documents → ¬ db.Touched m.tokens documents := by
  by_cases unhanded : op.Unhanded m name entity
  · exact iff_of_true (perform_unhanded calm unhanded)
      fun db documents hands => absurd hands (unhanded db documents)
  · simp only [Mutation.Unhanded, not_forall, not_not] at unhanded
    obtain ⟨db, documents, hands⟩ := unhanded
    have only : ∀ db' documents', op.Hands m name entity db' documents' →
        db' = db ∧ documents' = documents := by
      intro db' documents' hands'
      cases hands'.found.symm.trans hands.found
      exact ⟨rfl, Except.ok.inj (hands'.documents.symm.trans hands.documents)⟩
    rw [perform_handed calm hands]
    constructor
    · intro same db' documents' hands'
      obtain ⟨rfl, rfl⟩ := only db' documents' hands'
      rw [← saveBatch_eq_self_iff]
      exact (Keyed.set_eq_self_iff hands'.found).1 same
    · intro untouched
      rw [(saveBatch_eq_self_iff db m.tokens documents).2 (untouched db documents hands)]
      exact Keyed.set_eq_self hands.found

/-- The document can be copied and filed, whatever token it may be given. -/
structure Storable (fields : Document) : Prop where
  copyable : (Value.map fields).copyable = true
  hashable : ∀ tokens, (place tokens fields).1.hashable = true

def Mutation.ReadsBack (op : Mutation) (entity : Entity) (returning : Value)
    (fields : Document) : Prop :=
  ∀ tokens revision, ∃ read,
    op.read entity returning (filed fields (place tokens fields).1 revision) = .ok read

theorem save_of_storable (db : Database) (tokens : Tokens) {fields : Document}
    (storable : Storable fields) :
    let id := (place tokens fields).1
    (revisionOf fields ≠ db.awaited id ∧
      (db.save tokens (.map fields)).outcome = .error (conflict id)) ∨
    ∃ revision, (db.save tokens (.map fields)).outcome = .ok (filed fields id revision) := by
  have files := db.save_files tokens fields
  generalize db.save tokens (.map fields) = effect at files ⊢
  cases files with
  | odd unhashable =>
      rw [storable.hashable tokens] at unhashable
      cases unhashable
  | stale _ refused => exact .inl ⟨refused, rfl⟩
  | fixed _ uncopyable =>
      rw [storable.copyable] at uncopyable
      cases uncopyable
  | filed revision => exact .inr ⟨revision, rfl⟩

theorem save_ok_of_touches {tokens : Tokens} {fields : Document} (storable : Storable fields)
    (touches : db.Touches (place tokens fields).1 fields) :
    ∃ revision, (db.save tokens (.map fields)).outcome =
      .ok (filed fields (place tokens fields).1 revision) := by
  obtain ⟨refused, -⟩ | filed := save_of_storable db tokens storable
  · exact absurd touches.admitted.presented refused
  · exact filed

theorem saveBatch_ok (db : Database) (tokens : Tokens)
    (storable : ∀ fields ∈ documents, Storable fields) :
    ∃ items, (db.saveBatch tokens (documents.map .map)).outcome = .ok items := by
  induction documents generalizing db tokens with
  | nil => exact ⟨[], rfl⟩
  | cons fields rest ih =>
      obtain ⟨first, others⟩ := List.forall_mem_cons.1 storable
      have item : ∃ item, itemOf fields (db.save tokens (.map fields)).outcome = .ok item := by
        obtain ⟨-, refused⟩ | ⟨revision, filed⟩ := save_of_storable db tokens first
        · exact ⟨_, by rw [refused]; rfl⟩
        · exact ⟨_, by rw [filed]; rfl⟩
      obtain ⟨item, accepted⟩ := item
      rw [List.map_cons, saveBatch_map rfl, accepted]
      obtain ⟨items, saved⟩ := ih _ _ others
      exact ⟨item :: items, Outcome.bind_eq_ok.2 ⟨items, saved, rfl⟩⟩

theorem insert_succeeds {record : Value}
    (hands : (Mutation.insert record).Hands m name entity db documents)
    (sound : ∀ fields ∈ documents, Storable fields ∧
      (Mutation.insert record).ReadsBack entity returning fields)
    (touched : db.Touched m.tokens documents) :
    ∃ result, (eval (Write.insert name entity record returning) m).1 = .ok result := by
  obtain ⟨free, found, handed⟩ := hands
  obtain ⟨fields, prepared, h⟩ := Outcome.bind_eq_ok.1 handed
  cases h
  obtain ⟨storable, reads⟩ := sound fields List.mem_cons_self
  obtain ⟨revision, saved⟩ := save_ok_of_touches storable (touched_single.1 touched)
  obtain ⟨read, answered⟩ := reads m.tokens revision
  rw [insert_answer free found prepared, saved, answer_inserted]
  exact ⟨_, Outcome.bind_eq_ok.2 ⟨read, answered, rfl⟩⟩

theorem update_succeeds {id rev changes : Value} (calm : m.rival = none)
    (hands : (Mutation.update id rev changes).Hands m name entity db documents)
    (sound : ∀ fields ∈ documents, Storable fields ∧
      (Mutation.update id rev changes).ReadsBack entity returning fields)
    (touched : db.Touched m.tokens documents) :
    ∃ result, (eval (Write.update name entity id rev changes returning) m).1 = .ok result := by
  obtain ⟨admitted, current, records, admissible, rfl, read⟩ := read_handed calm hands
  obtain ⟨storable, reads⟩ := sound _ List.mem_cons_self
  obtain ⟨revision, saved⟩ := save_ok_of_touches storable (touched_single.1 touched)
  obtain ⟨answer, answered⟩ := reads m.tokens revision
  have accepted := (saveChanged_ok_iff (m := logged m records) entity hands.free hands.found
    id rev (applyChanges current admitted) _).2 saved
  rw [eval_update_read admissible read]
  dsimp only
  rw [accepted]
  exact ⟨_, Outcome.bind_eq_ok.2 ⟨_, rfl, Outcome.bind_eq_ok.2 ⟨answer, answered, rfl⟩⟩⟩

theorem batchRows_ok {records : Value} {items : List BatchItem} (free : m.pendingFailure = none)
    (found : m.databases.find? (.str name) = some db)
    (reads : ∀ fields ∈ documents,
      (Mutation.insertAll records).ReadsBack entity returning fields)
    (saved : (db.saveBatch m.tokens (documents.map .map)).outcome = .ok items)
    (some' : documents ≠ []) :
    ∃ rows, batchRows entity returning documents items = .ok rows := by
  cases counted : returning.isNull with
  | true => exact ⟨none, by rw [batchRows, counted]; rfl⟩
  | false =>
      have readable : ∀ fields ∈ documents, Readable entity returning fields := by
        intro fields mem tokens revision
        obtain ⟨read, h⟩ := reads fields mem tokens revision
        rw [Mutation.read, counted] at h
        exact ⟨read, h⟩
      obtain ⟨fields, mem⟩ := List.exists_mem_of_ne_nil documents some'
      obtain ⟨read, h⟩ := readable fields mem m.tokens (.after none "")
      obtain ⟨names, listed, -⟩ := Outcome.bind_eq_ok.1 h
      obtain ⟨-, agrees⟩ := saveBatch_agrees free found readable
      rw [saved] at agrees
      generalize (eval _ m).1 = results at agrees
      cases agrees with
      | answered all => exact ⟨_, all.batchRows listed⟩

theorem insertAll_succeeds {records : Value}
    (hands : (Mutation.insertAll records).Hands m name entity db documents)
    (sound : ∀ fields ∈ documents, Storable fields ∧
      (Mutation.insertAll records).ReadsBack entity returning fields)
    (touched : db.Touched m.tokens documents) :
    ∃ result, (eval (Write.insertAll name entity records returning) m).1 = .ok result := by
  obtain ⟨free, found, prepared⟩ := hands
  have storable : ∀ fields ∈ documents, Storable fields := fun fields mem => (sound fields mem).1
  obtain ⟨items, saved⟩ := saveBatch_ok db m.tokens storable
  have some' : documents ≠ [] := by
    rintro rfl
    cases touched
  obtain ⟨rows, answered⟩ := batchRows_ok free found (fun fields mem => (sound fields mem).2)
    saved some'
  obtain ⟨logs, summarized⟩ := eval_insertAllPrepared m name entity documents returning
  rw [eval_insertAll prepared, if_neg (by simpa using some'), summarized,
    eval_saveBatch free found, saved]
  exact ⟨_, Outcome.bind_eq_ok.2 ⟨items, rfl, Outcome.bind_eq_ok.2 ⟨rows, answered, rfl⟩⟩⟩

theorem perform_succeeds (calm : op.Calm m) (hands : op.Hands m name entity db documents)
    (sound : ∀ fields ∈ documents, Storable fields ∧ op.ReadsBack entity returning fields)
    (touched : db.Touched m.tokens documents) :
    (eval (op.perform name entity returning) m).1 = .ok () := by
  cases op with
  | insert record =>
      obtain ⟨result, h⟩ := insert_succeeds hands sound touched
      rw [Mutation.perform, eval_then_pure, h]
      rfl
  | insertAll records =>
      obtain ⟨result, h⟩ := insertAll_succeeds hands sound touched
      rw [Mutation.perform, eval_then_pure, h]
      rfl
  | update id rev changes =>
      obtain ⟨result, h⟩ := update_succeeds calm hands sound touched
      rw [Mutation.perform, eval_then_pure, h]
      rfl

/-- A mutation that fails leaves the databases as they were exactly if it handed no database
a document that was taken; so it does if all its documents can be filed and read back. -/
theorem failed_leaves_databases_iff {failure : Failure} (calm : op.Calm m)
    (failed : (eval (op.perform name entity returning) m).1 = .error failure) :
    let left := (eval (op.perform name entity returning) m).2
    (left.databases = m.databases ↔
      ∀ db documents, op.Hands m name entity db documents → ¬ db.Touched m.tokens documents) ∧
    ((∀ db documents, op.Hands m name entity db documents →
        ∀ fields ∈ documents, Storable fields ∧ op.ReadsBack entity returning fields) →
      left.databases = m.databases) := by
  refine ⟨perform_databases_iff calm, fun sound => ?_⟩
  rw [perform_databases_iff calm]
  intro db documents hands touched
  rw [perform_succeeds calm hands (sound db documents hands) touched] at failed
  cases failed

end Performed

open Blog

theorem stale_update_leaves_store :
    let op : Mutation := .update (.str "a") (.str "0-x") (.map [(.str "title", .str "two")])
    let done := eval (op.perform "posts" entity (.list [])) store
    done.1 = .error ((Staleness.newer (.str "1-t")).failure entity (.str "a") (.str "0-x")) ∧
      done.2.databases = store.databases := by
  intro op done
  have failed : done.1 =
      .error ((Staleness.newer (.str "1-t")).failure entity (.str "a") (.str "0-x")) := rfl
  have calm : op.Calm store := rfl
  refine ⟨failed, (failed_leaves_databases_iff calm failed).1.2 fun db documents hands => ?_⟩
  have moved : op.documents entity db = .error (conflict (.str "a")) := by
    cases hands.found.symm.trans found
    rfl
  cases hands.documents.symm.trans moved

/-- An embedded record that validation accepts cannot be read back after its document was
saved, and an identifier that cannot be a key ends a batch after other documents were
saved. -/
theorem failed_writes_change_store :
    let counts : RecordType := ⟨"Stats", [("visits", none), ("seconds", none)]⟩
    let stats : Field :=
      { Field.plain "stats" .embedsOne with
        embed := some ⟨.str "Stats", [.plain "visits" .integer, .plain "seconds" .integer],
          some counts⟩ }
    let counted : Entity := { entity with fields := entity.fields ++ [stats] }
    let single : Mutation := .insert (.map [(.str "_id", .str "b"),
      (.str "stats", .map [(.str "visits", .int 1)])])
    let several : Mutation := .insertAll (.list [.map [(.str "_id", .str "b")],
      .map [(.str "_id", .list [.int 1])]])
    let one := eval (single.perform "posts" counted (.list [.str "stats"])) store
    let many := eval (several.perform "posts" entity (.list [])) store
    store.Reachable ∧ one.1 = .error .wrongType ∧ many.1 = .error .wrongType ∧
      (∃ db written, one.2.databases.find? (.str "posts") = some db ∧
        db.documents.find? (.str "b") = some written) ∧
      (∃ db written, many.2.databases.find? (.str "posts") = some db ∧
        db.documents.find? (.str "b") = some written) ∧
      ∃ db, store.databases.find? (.str "posts") = some db ∧
        db.documents.find? (.str "b") = none := by
  intro counts stats counted single several one many
  refine ⟨⟨_, operations, rfl⟩, rfl, rfl, ⟨_, _, rfl, rfl⟩, ⟨_, _, rfl, rfl⟩, ⟨_, found, rfl⟩⟩

end DocMapper.Write
