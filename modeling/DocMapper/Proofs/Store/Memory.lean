import DocMapper.Proofs.Store.Database
import DocMapper.Store.Memory

/-!
# Operations on a store

What an operation answers, and the store that it leaves, as a pair.  While no
failure is pending, an operation on documents answers as the step on the database
does and keeps the database that the step leaves.
-/

namespace DocMapper

def StoreM.eval {α : Type} (action : StoreM α) (m : Memory) : Outcome α × Memory :=
  action.run.run m

namespace StoreM

variable {α β : Type} (m : Memory)

@[simp] theorem eval_throw (failure : Failure) :
    eval (throw failure : StoreM α) m = (.error failure, m) := rfl

@[simp] theorem eval_lift (outcome : Outcome α) :
    eval (liftM outcome) m = (outcome, m) :=
  Outcome.run_lift outcome m

theorem eval_bind (action : StoreM α) (next : α → StoreM β) :
    eval (action >>= next) m = match eval action m with
      | (.ok a, m) => eval (next a) m
      | (.error failure, m) => (.error failure, m) := by
  rw [eval, Outcome.run_bind, eval]
  rcases action.run.run m with ⟨failure | a, m'⟩ <;> rfl

theorem eval_bind_ok {action : StoreM α} {next : α → StoreM β} {a : α} {m' : Memory}
    (h : eval action m = (.ok a, m')) : eval (action >>= next) m = eval (next a) m' := by
  rw [eval_bind, h]

theorem eval_bind_error {action : StoreM α} {next : α → StoreM β} {failure : Failure}
    {m' : Memory} (h : eval action m = (.error failure, m')) :
    eval (action >>= next) m = (.error failure, m') := by
  rw [eval_bind, h]

theorem eval_lift_ok {outcome : Outcome α} {next : α → StoreM β} {a : α}
    (h : outcome = .ok a) : eval (liftM outcome >>= next) m = eval (next a) m :=
  eval_bind_ok m ((eval_lift m outcome).trans (by rw [h]))

theorem eval_lift_error {outcome : Outcome α} {next : α → StoreM β} {failure : Failure}
    (h : outcome = .error failure) : eval (liftM outcome >>= next) m = (.error failure, m) :=
  eval_bind_error m ((eval_lift m outcome).trans (by rw [h]))

theorem eval_then_pure (action : StoreM α) (f : α → β) :
    eval (action >>= fun a => pure (f a)) m =
      ((do return f (← (eval action m).1)), (eval action m).2) := by
  rw [eval_bind]
  rcases eval action m with ⟨failure | a, m'⟩ <;> rfl

theorem eval_tryCatch (action : StoreM α) (handler : Failure → StoreM α) :
    eval (tryCatch action handler) m = match eval action m with
      | (.ok a, m) => (.ok a, m)
      | (.error failure, m) => eval (handler failure) m := by
  rw [eval, Outcome.run_tryCatch, eval]
  rcases action.run.run m with ⟨failure | a, m'⟩ <;> rfl

theorem eval_get (next : Memory → StoreM β) : eval (get >>= next) m = eval (next m) m := rfl

theorem eval_modify (f : Memory → Memory) : eval (modify f : StoreM Unit) m = (.ok (), f m) :=
  rfl

end StoreM

namespace Memory

open StoreM

variable {m : Memory} {name : String} {db : Database}

def keep {α : Type} (m : Memory) (name : String) (effect : Effect α) : Memory :=
  { m with
    databases := m.databases.set (.str name) effect.database
    tokens := effect.tokens }

@[simp] theorem keep_databases {α : Type} (m : Memory) (name : String) (effect : Effect α) :
    (m.keep name effect).databases.find? (.str name) = some effect.database := by
  simp [keep]

theorem eval_available (free : m.pendingFailure = none) :
    eval available m = (.ok (), m) := by
  rw [available, eval_get, free]
  rfl

theorem eval_available_pending {fault : Fault} (pending : m.pendingFailure = some fault) :
    eval available m = (.error (.fault fault), { m with pendingFailure := none }) := by
  rw [available, eval_get, pending]
  rfl

theorem eval_database (found : m.databases.find? (.str name) = some db) :
    eval (database name) m = (.ok db, m) := by
  rw [database, eval_get, found]
  rfl

theorem eval_onDatabase {α : Type} (found : m.databases.find? (.str name) = some db)
    (step : Database → Tokens → Effect α) :
    eval (onDatabase name step) m =
      ((step db m.tokens).outcome, m.keep name (step db m.tokens)) := by
  rw [onDatabase, eval_bind_ok m (eval_database found), eval_get]
  exact eval_lift _ _

theorem eval_save_ok (free : m.pendingFailure = none)
    (found : m.databases.find? (.str name) = some db) {document : Value} {fields : Entries}
    (saved : (db.save m.tokens document).outcome = .ok fields) :
    eval (save name document) m =
      (.ok fields, { m.keep name (db.save m.tokens document) with
        log := m.log ++ [documentSaved name fields] }) := by
  have step := eval_onDatabase found fun db tokens => db.save tokens document
  rw [saved] at step
  rw [save, eval_bind_ok m (eval_available free), eval_bind_ok m step]
  rfl

theorem eval_save_error (free : m.pendingFailure = none)
    (found : m.databases.find? (.str name) = some db) {document : Value} {failure : Failure}
    (failed : (db.save m.tokens document).outcome = .error failure) :
    eval (save name document) m =
      (.error failure, m.keep name (db.save m.tokens document)) := by
  have step := eval_onDatabase found fun db tokens => db.save tokens document
  rw [failed] at step
  rw [save, eval_bind_ok m (eval_available free), eval_bind_error m step]

theorem eval_save_outcome (free : m.pendingFailure = none)
    (found : m.databases.find? (.str name) = some db) (document : Value) :
    (eval (save name document) m).1 = (db.save m.tokens document).outcome := by
  cases h : (db.save m.tokens document).outcome with
  | ok fields => rw [eval_save_ok free found h]
  | error failure => rw [eval_save_error free found h]

theorem eval_saveBatch (free : m.pendingFailure = none)
    (found : m.databases.find? (.str name) = some db) (documents : List Value) :
    eval (saveBatch name (.list documents)) m =
      ((db.saveBatch m.tokens documents).outcome,
        m.keep name (db.saveBatch m.tokens documents)) := by
  have listed : eval (liftM (Value.list documents).items) m = (.ok documents, m) := rfl
  rw [saveBatch, eval_bind_ok m (eval_available free), eval_bind_ok m (eval_database found),
    eval_bind_ok m listed]
  exact eval_onDatabase found fun db tokens => db.saveBatch tokens documents

theorem eval_database_missing (missing : m.databases.find? (.str name) = none) :
    eval (database name) m = (.error (missingDatabase name), m) := by
  rw [database, eval_get, missing]
  rfl

theorem eval_openDatabase_missing (free : m.pendingFailure = none)
    (missing : m.databases.find? (.str name) = none) :
    eval (openDatabase name) m = (.error (missingDatabase name), m) := by
  rw [openDatabase, eval_bind_ok m (eval_available free)]
  exact eval_bind_error m (eval_database_missing missing)

theorem eval_fetch_missing (free : m.pendingFailure = none)
    (missing : m.databases.find? (.str name) = none) (id : Value) :
    eval (fetch name id) m = (.error (missingDatabase name), m) := by
  rw [fetch, eval_bind_ok m (eval_available free)]
  exact eval_bind_error m (eval_database_missing missing)

theorem eval_fetchView_missing (free : m.pendingFailure = none)
    (missing : m.databases.find? (.str name) = none) (design view options : Value) :
    eval (fetchView name design view options) m = (.error (missingDatabase name), m) := by
  rw [fetchView, eval_bind_ok m (eval_available free)]
  exact eval_bind_error m (eval_database_missing missing)

theorem eval_save_missing (free : m.pendingFailure = none)
    (missing : m.databases.find? (.str name) = none) (document : Value) :
    eval (save name document) m = (.error (missingDatabase name), m) := by
  have step : eval (onDatabase name fun db tokens => db.save tokens document) m =
      (.error (missingDatabase name), m) :=
    eval_bind_error m (eval_database_missing missing)
  rw [save, eval_bind_ok m (eval_available free), eval_bind_error m step]

theorem eval_saveBatch_missing (free : m.pendingFailure = none)
    (missing : m.databases.find? (.str name) = none) (documents : Value) :
    eval (saveBatch name documents) m = (.error (missingDatabase name), m) := by
  rw [saveBatch, eval_bind_ok m (eval_available free),
    eval_bind_error m (eval_database_missing missing)]

theorem eval_delete (free : m.pendingFailure = none)
    (found : m.databases.find? (.str name) = some db) (id rev : Value) :
    eval (delete name id rev) m =
      ((db.delete m.tokens id rev).outcome, m.keep name (db.delete m.tokens id rev)) := by
  rw [delete, eval_bind_ok m (eval_available free)]
  exact eval_onDatabase found fun db tokens => db.delete tokens id rev

theorem eval_fetch (free : m.pendingFailure = none) (calm : m.rival = none)
    (found : m.databases.find? (.str name) = some db) (id : Value) :
    eval (fetch name id) m = (db.fetch id, m) := by
  rw [fetch, eval_bind_ok m (eval_available free), eval_bind_ok m (eval_database found)]
  cases hfetch : db.fetch id with
  | error failure => exact eval_bind_error m (eval_lift m _)
  | ok current =>
      rw [eval_bind_ok m (eval_lift m (.ok current)), eval_get, calm]
      rfl

theorem eval_openDatabase (free : m.pendingFailure = none)
    (found : m.databases.find? (.str name) = some db) :
    eval (openDatabase name) m = (.ok (), m) := by
  rw [openDatabase, eval_bind_ok m (eval_available free), eval_bind_ok m (eval_database found)]
  rfl

theorem eval_fetchView (free : m.pendingFailure = none)
    (found : m.databases.find? (.str name) = some db) (design view options : Value) :
    eval (fetchView name design view options) m = (db.fetchView design view options, m) := by
  rw [fetchView, eval_bind_ok m (eval_available free), eval_bind_ok m (eval_database found)]
  exact eval_lift m _

theorem keep_eq_self {α : Type} (found : m.databases.find? (.str name) = some db)
    {effect : Effect α} (database : effect.database = db) (tokens : effect.tokens = m.tokens) :
    m.keep name effect = m := by
  rw [keep, database, tokens, Keyed.set_eq_self found]

inductive Call : {α : Type} → StoreM α → Prop
  | openDatabase (name : String) : Call (openDatabase name)
  | fetch (name : String) (id : Value) : Call (fetch name id)
  | fetchView (name : String) (design view options : Value) :
      Call (fetchView name design view options)
  | save (name : String) (document : Value) : Call (save name document)
  | saveBatch (name : String) (documents : Value) : Call (saveBatch name documents)
  | delete (name : String) (id rev : Value) : Call (delete name id rev)

theorem Call.eval_pending {α : Type} {call : StoreM α} (isCall : Call call) {m : Memory}
    {fault : Fault} (pending : m.pendingFailure = some fault) :
    eval call m = (.error (.fault fault), { m with pendingFailure := none }) := by
  have raised := eval_available_pending pending
  cases isCall with
  | openDatabase name => exact eval_bind_error m raised
  | fetch name id => exact eval_bind_error m raised
  | fetchView name design view options => exact eval_bind_error m raised
  | save name document => exact eval_bind_error m raised
  | saveBatch name documents => exact eval_bind_error m raised
  | delete name id rev => exact eval_bind_error m raised

end Memory

end DocMapper
