import DocMapper.Proofs.Store.Memory
import DocMapper.Proofs.Value.Json
import DocMapper.Write.Delete
import DocMapper.Write.Insert
import DocMapper.Write.Update

/-!
# Steps of writes on a store

What an insertion, a deletion and the two steps of an update answer, and the store
that they leave, in terms of the step on the database.  Only the log of the store
changes besides.
-/

namespace DocMapper.Write

open StoreM Memory Database

def logged (m : Memory) (records : List LogRecord) : Memory := { m with log := m.log ++ records }

theorem logged_nil (m : Memory) : logged m [] = m := by
  simp [logged]

theorem logged_logged (m : Memory) (records others : List LogRecord) :
    logged (logged m records) others = logged m (records ++ others) := by
  simp [logged]

def OnlyLogs {α : Type} (action : StoreM α) : Prop :=
  ∀ m, ∃ records, (eval action m).2 = logged m records

/-- After the operation the store is the given one, up to what was logged. -/
def Leaves {α : Type} (action : StoreM α) (m left : Memory) : Prop :=
  ∃ records, (eval action m).2 = logged left records

section Logging

variable {α β : Type} {action : StoreM α} {next : α → StoreM β} {m left : Memory}

theorem onlyLogs_pure (a : α) : OnlyLogs (pure a : StoreM α) :=
  fun m => ⟨[], (logged_nil m).symm⟩

theorem onlyLogs_throw (failure : Failure) : OnlyLogs (throw failure : StoreM α) :=
  fun m => ⟨[], (logged_nil m).symm⟩

theorem onlyLogs_report (record : LogRecord) : OnlyLogs (report record) :=
  fun _ => ⟨[record], rfl⟩

theorem Leaves.then (h : Leaves action m left) (logs : ∀ a, OnlyLogs (next a)) :
    Leaves (action >>= next) m left := by
  obtain ⟨records, h⟩ := h
  rcases heval : eval action m with ⟨failure | a, m'⟩ <;> rw [heval] at h <;> subst h
  · exact ⟨records, by rw [eval_bind_error m heval]⟩
  · obtain ⟨others, hnext⟩ := logs a (logged left records)
    exact ⟨records ++ others, by rw [eval_bind_ok m heval, hnext, logged_logged]⟩

theorem Leaves.catch {handler : Failure → StoreM α} (h : Leaves action m left)
    (logs : ∀ failure, OnlyLogs (handler failure)) :
    Leaves (tryCatch action handler) m left := by
  obtain ⟨records, h⟩ := h
  rcases heval : eval action m with ⟨failure | a, m'⟩ <;> rw [heval] at h <;> subst h
  · obtain ⟨others, hnext⟩ := logs failure (logged left records)
    exact ⟨records ++ others, by rw [eval_tryCatch, heval, hnext, logged_logged]⟩
  · exact ⟨records, by rw [eval_tryCatch, heval]⟩

theorem OnlyLogs.then (h : OnlyLogs action) (logs : ∀ a, OnlyLogs (next a)) :
    OnlyLogs (action >>= next) :=
  fun m => Leaves.then (h m) logs

end Logging

section Steps

variable {m : Memory} {name : String} {db : Database} {entity : Entity}

theorem save_leaves (free : m.pendingFailure = none)
    (found : m.databases.find? (.str name) = some db) (document : Value) :
    Leaves (Memory.save name document) m (m.keep name (db.save m.tokens document)) := by
  cases h : (db.save m.tokens document).outcome with
  | ok fields => exact ⟨[documentSaved name fields], by rw [eval_save_ok free found h]; rfl⟩
  | error failure => exact ⟨[], by rw [eval_save_error free found h, logged_nil]⟩

theorem delete_leaves (free : m.pendingFailure = none)
    (found : m.databases.find? (.str name) = some db) (id rev : Value) :
    Leaves (Memory.delete name id rev) m (m.keep name (db.delete m.tokens id rev)) :=
  ⟨[], by rw [eval_delete free found, logged_nil]⟩

def document (entity : Entity) (record : Value) : Outcome Document := do
  validate entity record false
  prepare entity record

theorem eval_insert_invalid (m : Memory) (name : String) {record : Value} {failure : Failure}
    (h : document entity record = .error failure) (returning : Value) :
    eval (insert name entity record returning) m = (.error failure, m) := by
  rw [document] at h
  cases valid : validate entity record false with
  | error failure' =>
      rw [valid] at h
      cases h
      exact eval_lift_error m valid
  | ok u =>
      rw [valid] at h
      have refused : prepare entity record = .error failure := h
      rw [insert, eval_lift_ok m valid, eval_lift_error m refused]

theorem eval_insert_valid (m : Memory) (name : String) {record : Value} {fields : Document}
    (h : document entity record = .ok fields) (returning : Value) :
    eval (insert name entity record returning) m =
      eval (insertPrepared name entity fields returning) m := by
  obtain ⟨u, valid, prepared⟩ := Outcome.bind_eq_ok.1 h
  rw [insert, eval_lift_ok m valid, eval_lift_ok m prepared]

def newOrTaken : Outcome Entries → Outcome (Option Entries)
  | .ok saved => .ok (some saved)
  | .error (.fault (.conflict ..)) => .ok none
  | .error failure => .error failure

def returned (entity : Entity) (saved : Entries) (returning : Value) : Outcome Entries := do
  decodeDocument entity.fields (.map saved) (← returning.items)

def insertAnswer (entity : Entity) (fields : Document) (returning : Value)
    (saving : Outcome Entries) : Outcome InsertResult := do
  match ← newOrTaken saving with
  | none => return .taken (identifierOf fields) entity.idIndex
  | some saved =>
      return .inserted (identifierOf saved) (revisionOf saved)
        (← returned entity saved returning)

theorem eval_saveNew (m : Memory) (name : String) (fields : Document) :
    eval (saveNew name fields) m =
      (newOrTaken (eval (Memory.save name (.map fields)) m).1,
        (eval (Memory.save name (.map fields)) m).2) := by
  rw [saveNew, eval_tryCatch, map_eq_pure_bind]
  rcases h : eval (Memory.save name (.map fields)) m with ⟨failure | saved, m'⟩
  · rw [eval_bind_error m h]
    cases failure with
    | fault fault => cases fault <;> rfl
    | _ => rfl
  · rw [eval_bind_ok m h]
    rfl

theorem eval_insertPrepared (m : Memory) (name : String) (entity : Entity) (fields : Document)
    (returning : Value) :
    ∃ records, eval (insertPrepared name entity fields returning) m =
      (insertAnswer entity fields returning (eval (Memory.save name (.map fields)) m).1,
        logged (eval (Memory.save name (.map fields)) m).2 records) := by
  have saving := eval_saveNew m name fields
  rw [insertPrepared, insertAnswer]
  rcases h : newOrTaken (eval (Memory.save name (.map fields)) m).1 with
    failure | _ | saved <;> rw [h] at saving
  · exact ⟨[], by rw [eval_bind_error m saving, logged_nil]; rfl⟩
  · exact ⟨_, eval_bind_ok m saving⟩
  · refine ⟨[], ?_⟩
    rw [eval_bind_ok m saving, logged_nil]
    have answered := eval_then_pure (eval (Memory.save name (.map fields)) m).2
      (liftM (returned entity saved returning))
      (InsertResult.inserted (identifierOf saved) (revisionOf saved))
    rw [eval_lift] at answered
    exact answered

theorem eval_insertPrepared_found (free : m.pendingFailure = none)
    (found : m.databases.find? (.str name) = some db) (entity : Entity) (fields : Document)
    (returning : Value) :
    ∃ records, eval (insertPrepared name entity fields returning) m =
      (insertAnswer entity fields returning (db.save m.tokens (.map fields)).outcome,
        logged (m.keep name (db.save m.tokens (.map fields))) records) := by
  obtain ⟨records, answered⟩ := eval_insertPrepared m name entity fields returning
  obtain ⟨others, left⟩ := save_leaves free found (.map fields)
  exact ⟨others ++ records, by
    rw [answered, eval_save_outcome free found, left, logged_logged]⟩

theorem insert_leaves (free : m.pendingFailure = none)
    (found : m.databases.find? (.str name) = some db) {record : Value} {fields : Document}
    (h : document entity record = .ok fields) (returning : Value) :
    Leaves (insert name entity record returning) m
      (m.keep name (db.save m.tokens (.map fields))) := by
  obtain ⟨records, inserted⟩ := eval_insertPrepared_found free found entity fields returning
  exact ⟨records, by rw [eval_insert_valid m name h, inserted]⟩

theorem write_delete_leaves (free : m.pendingFailure = none)
    (found : m.databases.find? (.str name) = some db) (id rev : Value) :
    Leaves (Write.delete name entity id rev) m (m.keep name (db.delete m.tokens id rev)) := by
  rw [Write.delete]
  refine Leaves.catch ((delete_leaves free found id rev).then fun _ => onlyLogs_pure _) ?_
  intro failure
  split
  · exact (onlyLogs_report _).then fun _ => onlyLogs_pure _
  · exact (onlyLogs_report _).then fun _ => onlyLogs_pure _
  · exact onlyLogs_throw _

def accepted : Outcome DeleteResult → Bool
  | .ok (.deleted _) => true
  | _ => false

theorem accepted_delete (free : m.pendingFailure = none)
    (found : m.databases.find? (.str name) = some db) (id rev : Value) :
    accepted (eval (Write.delete name entity id rev) m).1 =
      (db.delete m.tokens id rev).outcome.isOk := by
  have step := eval_delete free found id rev
  rw [Write.delete, eval_tryCatch]
  cases h : (db.delete m.tokens id rev).outcome with
  | ok revision =>
      rw [h] at step
      rw [eval_bind_ok m step]
      rfl
  | error failure =>
      rw [h] at step
      rw [eval_bind_error m step]
      simp only
      split <;> rfl

/-! ## Updates -/

theorem readForUpdate_leaves (name : String) (entity : Entity) (id rev : Value) (m : Memory) :
    Leaves (readForUpdate name entity id rev) m (eval (Memory.fetch name id) m).2 := by
  have fetched : Leaves (Memory.fetch name id) m (eval (Memory.fetch name id) m).2 :=
    ⟨[], (logged_nil _).symm⟩
  refine Leaves.then (fetched.catch fun failure => ?_) fun current => ?_
  · split <;> exact onlyLogs_throw _
  · dsimp only
    split
    · exact (onlyLogs_report _).then fun _ => onlyLogs_throw _
    · exact onlyLogs_pure _

theorem readForUpdate_ok_iff {id rev : Value} {current : Entries} :
    (eval (readForUpdate name entity id rev) m).1 = .ok current ↔
      (eval (Memory.fetch name id) m).1 = .ok current ∧
        (revisionOf current).differs rev = false := by
  rw [readForUpdate, eval_bind, eval_tryCatch]
  rcases eval (Memory.fetch name id) m with ⟨failure | fetched, m'⟩
  · refine iff_of_false ?_ (by rintro ⟨h, -⟩; cases h)
    cases failure with
    | fault fault => cases fault <;> exact nofun
    | _ => exact nofun
  · dsimp only
    cases moved : (revisionOf fetched).differs rev with
    | true =>
        refine iff_of_false (by intro h; cases h) ?_
        rintro ⟨h, same⟩
        cases h
        rw [same] at moved
        cases moved
    | false =>
        constructor
        · intro h
          cases h
          exact ⟨rfl, moved⟩
        · rintro ⟨h, -⟩
          cases h
          rfl

theorem readForUpdate_absent (entity : Entity) (free : m.pendingFailure = none)
    (calm : m.rival = none) (found : m.databases.find? (.str name) = some db) {id : String}
    (absent : db.documents.find? (.str id) = none) (rev : Value) :
    eval (readForUpdate name entity (.str id) rev) m =
      (.error (Staleness.absent.failure entity (.str id) rev), m) := by
  have fetched := eval_fetch free calm found (.str id)
  rw [Database.fetch_text, absent] at fetched
  rw [readForUpdate, eval_bind, eval_tryCatch, fetched]
  rfl

theorem readForUpdate_live (entity : Entity) (free : m.pendingFailure = none)
    (calm : m.rival = none) (found : m.databases.find? (.str name) = some db) {id : String}
    {stored : Stored} (live : db.documents.find? (.str id) = some stored) (rev : Value) :
    eval (readForUpdate name entity (.str id) rev) m =
      let actual := Database.revisionOf stored.fields
      if actual.differs rev then
        (.error ((Staleness.newer actual).failure entity (.str id) rev),
          logged m [revisionMoved (.str id) rev actual])
      else (.ok stored.fields, m) := by
  have fetched := eval_fetch free calm found (.str id)
  rw [Database.fetch_text, live] at fetched
  rw [readForUpdate]
  refine (eval_bind_ok m (by rw [eval_tryCatch, fetched])).trans ?_
  simp only
  split <;> rfl

theorem readForUpdate_cases (entity : Entity) (free : m.pendingFailure = none)
    (calm : m.rival = none) (found : m.databases.find? (.str name) = some db) (id : String)
    (rev : Value) :
    (∃ stored, db.documents.find? (.str id) = some stored ∧
      (Database.revisionOf stored.fields).differs rev = false ∧
      eval (readForUpdate name entity (.str id) rev) m = (.ok stored.fields, m)) ∨
    ∃ failure records,
      eval (readForUpdate name entity (.str id) rev) m = (.error failure, logged m records) := by
  cases hlive : db.documents.find? (.str id) with
  | none =>
      have read := readForUpdate_absent entity free calm found hlive rev
      exact .inr ⟨_, [], by rw [read, logged_nil]⟩
  | some stored =>
      have read := readForUpdate_live entity free calm found hlive rev
      cases moved : (Database.revisionOf stored.fields).differs rev with
      | true =>
          simp only [moved, if_true] at read
          exact .inr ⟨_, _, read⟩
      | false =>
          simp only [moved, Bool.false_eq_true, if_false] at read
          exact .inl ⟨stored, rfl, moved, read⟩

theorem saveChanged_leaves (entity : Entity) (free : m.pendingFailure = none)
    (found : m.databases.find? (.str name) = some db) (id rev : Value) (fields : Entries) :
    Leaves (saveChanged name entity id rev fields) m
      (m.keep name (db.save m.tokens (.map fields))) := by
  rw [saveChanged]
  refine (save_leaves free found _).catch fun failure => ?_
  split <;> exact onlyLogs_throw _

theorem saveChanged_ok_iff (entity : Entity) (free : m.pendingFailure = none)
    (found : m.databases.find? (.str name) = some db) (id rev : Value) (fields saved : Entries) :
    (eval (saveChanged name entity id rev fields) m).1 = .ok saved ↔
      (db.save m.tokens (.map fields)).outcome = .ok saved := by
  rw [saveChanged, eval_tryCatch]
  cases h : (db.save m.tokens (.map fields)).outcome with
  | ok saved' => rw [eval_save_ok free found h]
  | error failure =>
      rw [eval_save_error free found h]
      simp only
      split <;> simp

theorem saveChanged_conflict (free : m.pendingFailure = none)
    (found : m.databases.find? (.str name) = some db) (id rev : Value) {fields : Entries}
    {taken : Value}
    (h : db.save m.tokens (.map fields) = .fail (Database.conflict taken) db m.tokens) :
    eval (saveChanged name entity id rev fields) m =
      (.error (Staleness.overtaken.failure entity id rev), m) := by
  have failed : (db.save m.tokens (.map fields)).outcome = .error (Database.conflict taken) := by
    rw [h]
    rfl
  have same : m.keep name (db.save m.tokens (.map fields)) = m := by
    rw [h]
    exact keep_eq_self found rfl rfl
  rw [saveChanged, eval_tryCatch, eval_save_error free found failed, same]
  rfl

def readUpdated (entity : Entity) (returning : Value) (saved : Entries) : Outcome Entries := do
  decodeDocument entity.fields (.map saved) (← returnedNames returning)

def updateAnswer (entity : Entity) (returning : Value) (saving : Outcome Entries) :
    Outcome UpdateResult := do
  let saved ← saving
  return ⟨identifierOf saved, revisionOf saved, ← readUpdated entity returning saved⟩

theorem eval_update_read {id rev changes returning : Value} {admitted current : Entries}
    {m' : Memory} (admissible : admissibleChanges entity changes = .ok admitted)
    (read : eval (readForUpdate name entity id rev) m = (.ok current, m')) :
    eval (Write.update name entity id rev changes returning) m =
      let saving := eval (saveChanged name entity id rev (applyChanges current admitted)) m'
      (updateAnswer entity returning saving.1, saving.2) := by
  rw [Write.update, eval_lift_ok m admissible, eval_bind_ok m read]
  dsimp only
  rcases saving : eval (saveChanged name entity id rev (applyChanges current admitted)) m' with
    ⟨failure | saved, m''⟩
  · exact eval_bind_error m' saving
  · rw [eval_bind_ok m' saving]
    have answered := eval_then_pure m'' (liftM (readUpdated entity returning saved))
      (UpdateResult.mk (identifierOf saved) (revisionOf saved))
    rw [eval_lift] at answered
    exact answered

/-- The last value that changes give a field, encoded. -/
def changed? (changes : Entries) (name : String) : Option Value :=
  (changes.reverse.find? fun c => c.1.text == name).map fun c => encodeValue c.2

theorem find?_applyChanges (document changes : Entries) (name : String) :
    (applyChanges document changes).find? (.str name) =
      (changed? changes name).or (document.find? (.str name)) := by
  induction changes generalizing document with
  | nil => rfl
  | cons c rest ih =>
      have step : applyChanges document (c :: rest) =
          applyChanges (document.set (.str c.1.text) (encodeValue c.2)) rest := rfl
      rw [step, ih, Keyed.find?_set_text, changed?, changed?, List.reverse_cons,
        List.find?_append]
      cases rest.reverse.find? fun c => c.1.text == name with
      | some last => simp
      | none => by_cases h : c.1.text = name <;> simp [h]

def Texts (entity : Entity) : Prop := ∀ field ∈ entity.fields, field.name.isText = true

theorem name_of_isAmong (texts : Texts entity) {name : Value}
    (h : name.isAmong entity.fieldNames = true) :
    (∃ s, name = .str s) ∨ ∃ view, name = .viewRef view := by
  obtain ⟨item, mem, same⟩ := Value.isAmong_iff.1 h
  obtain ⟨field, hfield, rfl⟩ := List.mem_map.1 mem
  obtain ⟨s, hs⟩ := Value.isText_iff.1 (texts field hfield)
  rw [hs, Value.same, Value.agree, Value.against] at same
  cases name with
  | str t => exact .inl ⟨t, rfl⟩
  | viewRef view => exact .inr ⟨view, rfl⟩
  | _ => simp [Value.isViewRef] at same

theorem text_viewRef_ne {view : Value} {s : String} (h : s.toList.head? ≠ some 'v') :
    (Value.viewRef view).text ≠ s := by
  intro heq
  have written : (Value.viewRef view).text = "view_key(" ++ view.display ++ ")" := rfl
  apply h
  rw [← heq, written, String.toList_append, String.toList_append]
  rfl

theorem isAmong_of_validate {values : Entries} {isPartial : Bool}
    (h : validate entity (.map values) isPartial = .ok ()) :
    ∀ name ∈ values.map Prod.fst, name.isAmong entity.fieldNames = true := by
  rw [validate] at h
  obtain ⟨values', hvalues, h⟩ := Outcome.bind_eq_ok.1 h
  cases hvalues
  cases hfind : (values.map Prod.fst).find? fun name => !name.isAmong entity.fieldNames with
  | some name =>
      rw [hfind] at h
      obtain ⟨suggestions, -, h⟩ := Outcome.bind_eq_ok.1 h
      cases h
  | none =>
      intro name mem
      simpa using List.find?_eq_none.1 hfind name mem

theorem not_has_of_reservedIn {changes : Entries} (h : reservedIn changes = []) :
    ∀ c ∈ changes, c.1 ≠ .str idField ∧ c.1 ≠ .str revField := by
  have absent : ∀ name ∈ [idField, revField], ¬ changes.has (.str name) = true :=
    List.filter_eq_nil_iff.1 h
  have holds : ∀ s : String, ∀ c ∈ changes, c.1 = .str s → changes.has (.str s) = true := by
    intro s c mem heq
    rw [Keyed.has, Keyed.find?, Option.isSome_map, List.find?_isSome]
    exact ⟨c, mem, by rw [heq, Value.sameKey_str, beq_self_eq_true]⟩
  intro c mem
  exact ⟨fun heq => absent idField (by simp) (holds _ c mem heq),
    fun heq => absent revField (by simp) (holds _ c mem heq)⟩

theorem changed?_reserved (texts : Texts entity) {changes : Value} {admitted : Entries}
    (h : admissibleChanges entity changes = .ok admitted) :
    changed? admitted idField = none ∧ changed? admitted revField = none := by
  obtain ⟨fields, -, h⟩ := Outcome.bind_eq_ok.1 h
  cases hreserved : reservedIn fields with
  | cons first rest =>
      rw [hreserved] at h
      cases h
  | nil =>
      rw [hreserved] at h
      obtain ⟨u, hv, h⟩ := Outcome.bind_eq_ok.1 h
      cases h
      have other : ∀ c ∈ admitted, c.1.text ≠ idField ∧ c.1.text ≠ revField := by
        intro c mem
        obtain ⟨s, hs⟩ | ⟨view, hview⟩ :=
          name_of_isAmong texts (isAmong_of_validate hv c.1 (List.mem_map_of_mem mem))
        · obtain ⟨hid, hrev⟩ := not_has_of_reservedIn hreserved c mem
          rw [hs] at hid hrev ⊢
          exact ⟨fun h => hid (by rw [← h]; rfl), fun h => hrev (by rw [← h]; rfl)⟩
        · rw [hview]
          exact ⟨text_viewRef_ne (by decide), text_viewRef_ne (by decide)⟩
      constructor <;>
        rw [changed?, Option.map_eq_none_iff, List.find?_eq_none] <;>
        simp only [List.mem_reverse, beq_iff_eq]
      · exact fun c mem => (other c mem).1
      · exact fun c mem => (other c mem).2

end Steps

end DocMapper.Write
