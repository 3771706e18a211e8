import DocMapper.Proofs.Store.Memory
import DocMapper.Repository.Read

/-!
# Operations of a session

What an operation answers, and the session that it leaves, as a pair.  While no failure is
pending, what a read answers depends on nothing but the entity and its database, which may
be missing.
-/

namespace DocMapper

def SessionM.eval {α : Type} (action : SessionM α) (s : Session) : Outcome α × Session :=
  action.run.run s

namespace Session

open SessionM

variable {α β : Type} {s s' : Session}

theorem eval_bind_ok {action : SessionM α} {next : α → SessionM β} {a : α}
    (h : eval action s = (.ok a, s')) : eval (action >>= next) s = eval (next a) s' :=
  Outcome.run_bind_ok h

theorem eval_bind_error {action : SessionM α} {next : α → SessionM β} {failure : Failure}
    (h : eval action s = (.error failure, s')) :
    eval (action >>= next) s = (.error failure, s') :=
  Outcome.run_bind_error h

theorem eval_lift (outcome : Outcome α) : eval (liftM outcome) s = (outcome, s) :=
  Outcome.run_lift outcome s

theorem eval_get (next : Session → SessionM β) :
    eval (MonadState.get >>= next) s = eval (next s) s := rfl

theorem eval_tryCatch (action : SessionM α) (handler : Failure → SessionM α) :
    eval (tryCatch action handler) s = match eval action s with
      | (.ok a, s) => (.ok a, s)
      | (.error failure, s) => eval (handler failure) s := by
  rw [eval, Outcome.run_tryCatch, eval]
  rcases action.run.run s with ⟨failure | a, s'⟩ <;> rfl

theorem eval_onStore (action : StoreM α) : eval (onStore action) s =
    ((StoreM.eval action s.memory).1, { s with memory := (StoreM.eval action s.memory).2 }) := by
  exact eval_lift _

def resolve (s : Session) : EntityRef → Outcome Entity
  | .named name => s.registry.require name
  | .declared entity => .ok entity

theorem eval_entity (ref : EntityRef) : eval (entity ref) s = (s.resolve ref, s) := by
  cases ref with
  | named name => exact eval_lift (s.registry.require name)
  | declared entity => rfl

def shown (s : Session) (entity : Entity) : Outcome Database :=
  .ofOption (Memory.missingDatabase (s.settings.databaseName entity.source))
    (s.memory.databases.find? (.str (s.settings.databaseName entity.source)))

theorem eval_database_missing {entity : Entity} (free : s.memory.pendingFailure = none)
    (missing : s.memory.databases.find? (.str (s.settings.databaseName entity.source)) = none) :
    eval (database entity) s = (.ok (s.settings.databaseName entity.source), s) ∨
      eval (database entity) s =
        (.error (Memory.missingDatabase (s.settings.databaseName entity.source)), s) := by
  rw [database, eval_get, eval_get]
  split
  · exact .inl rfl
  · refine .inr (eval_bind_error ?_)
    rw [eval_onStore, Memory.eval_openDatabase_missing free missing]

theorem eval_database {entity : Entity} {db : Database} (free : s.memory.pendingFailure = none)
    (found : s.memory.databases.find? (.str (s.settings.databaseName entity.source)) = some db) :
    ∃ opened, eval (database entity) s =
      (.ok (s.settings.databaseName entity.source), { s with opened := opened }) := by
  rw [database, eval_get, eval_get]
  split
  · exact ⟨s.opened, rfl⟩
  · have step : eval (onStore (Memory.openDatabase (s.settings.databaseName entity.source))) s =
        (.ok (), s) := by
      rw [eval_onStore, Memory.eval_openDatabase free found]
    rw [eval_bind_ok step]
    exact ⟨_, rfl⟩

/-! ## Reads -/

variable {ref : EntityRef} {question : Question} {fields : Value}

section Reads

variable (free : s.memory.pendingFailure = none)

include free

def sought (s : Session) (entity : Entity) (id : Value) : Outcome (Option Entries) :=
  match s.shown entity >>= fun db => db.fetch id with
  | .ok document => .ok (some document)
  | .error (.fault (.notFound ..)) => .ok none
  | .error failure => .error failure

variable {query : Query} {entity : Entity} {lookup : Lookup} {db : Database}

end Reads

end Session

end DocMapper
