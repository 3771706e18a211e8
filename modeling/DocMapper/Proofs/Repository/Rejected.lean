import DocMapper.Proofs.Repository.Read
import DocMapper.Repository.Write

/-!
# Rejected requests

A query is compiled before anything is asked of the store.  A write opens its database
first, so it is rejected without a call to the store only if the database was opened
before.
-/

namespace DocMapper.Session

open SessionM

inductive Request where
  | all (question : Question) (fields : Value)
  | insert (record returning : Value)
  | insertAll (records returning : Value)
  | update (id rev changes returning : Value)

namespace Request

def perform (ref : EntityRef) : Request → SessionM Unit
  | .all question fields => do let _ ← Session.all ref question fields
  | .insert record returning => do let _ ← Session.insert ref record returning
  | .insertAll records returning => do let _ ← Session.insertAll ref records returning
  | .update id rev changes returning => do let _ ← Session.update ref id rev changes returning

def check (entity : Entity) : Request → Outcome Unit
  | .all question _ => do let _ ← compileQuery (← question.toQuery) entity
  | .insert record _ => validate entity record false
  | .insertAll records _ => do
      (← records.items).forM fun record => validate entity record false
  | .update _ _ changes _ => do let _ ← Write.admissibleChanges entity changes

def writes : Request → Bool
  | .all .. => false
  | _ => true

end Request

/-- The action fails without a call to the store.  A call would show: it raises a failure
that is pending and leaves none. -/
def FailsUncalled {α : Type} (action : SessionM α) (s : Session) (failure : Failure) : Prop :=
  ∀ m, eval action { s with memory := m } = (.error failure, { s with memory := m })

section Rejected

variable {s : Session} {ref : EntityRef} {entity : Entity} {request : Request}
  {failure : Failure}

theorem resolve_memory (s : Session) (ref : EntityRef) (m : Memory) :
    { s with memory := m }.resolve ref = s.resolve ref := by
  cases ref <;> rfl

theorem eval_database_opened
    (opened : s.opened.contains (s.settings.databaseName entity.source) = true) :
    eval (database entity) s = (.ok (s.settings.databaseName entity.source), s) := by
  rw [database, eval_get, eval_get, if_pos opened]
  rfl

theorem eval_database_pending
    (unopened : ¬ s.opened.contains (s.settings.databaseName entity.source) = true)
    {fault : Fault} (pending : s.memory.pendingFailure = some fault) :
    eval (database entity) s =
      (.error (.fault fault), { s with memory := { s.memory with pendingFailure := none } }) := by
  rw [database, eval_get, eval_get, if_neg unopened]
  refine eval_bind_error ?_
  rw [eval_onStore, (Memory.Call.openDatabase _).eval_pending pending]

theorem eval_write_fails {α : Type} {op : Entity → String → StoreM α}
    (next : α → SessionM Unit) (resolves : s.resolve ref = .ok entity)
    (fails : ∀ name m, StoreM.eval (op entity name) m = (.error failure, m)) :
    eval ((do
      let entity ← Session.entity ref
      let db ← database entity
      onStore (op entity db)) >>= next) s =
      eval (do let _ ← database entity; throw failure) s := by
  have found : eval (Session.entity ref) s = (.ok entity, s) := by rw [eval_entity, resolves]
  let write : SessionM α := do
    let entity ← Session.entity ref
    let db ← database entity
    onStore (op entity db)
  rcases opens : eval (database entity) s with ⟨failure' | name, s'⟩
  · have step : eval write s = (.error failure', s') := by
      rw [eval_bind_ok found, eval_bind_error opens]
    rw [eval_bind_error step, eval_bind_error opens]
  · have failed : eval (onStore (op entity name)) s' = (.error failure, s') := by
      rw [eval_onStore, fails]
    have step : eval write s = (.error failure, s') := by
      rw [eval_bind_ok found, eval_bind_ok opens, failed]
    rw [eval_bind_error step, eval_bind_ok opens]
    rfl

namespace Request

theorem eval_read_rejected (reads : request.writes = false)
    (resolves : s.resolve ref = .ok entity) (rejected : request.check entity = .error failure) :
    eval (request.perform ref) s = (.error failure, s) := by
  cases request with
  | all question fields =>
      have found : eval (Session.entity ref) s = (.ok entity, s) := by
        rw [eval_entity, resolves]
      have step : eval (Session.all ref question fields) s = (.error failure, s) := by
        rcases Outcome.bind_eq_error.1 rejected with unasked | ⟨query, asked, rejected⟩
        · rw [Session.all, eval_bind_error (by rw [unasked, eval_lift])]
        · have refused := Outcome.bind_pure_eq_error rejected
          have asked' : eval (liftM question.toQuery) s = (.ok query, s) := by
            rw [asked, eval_lift]
          have refused' : eval (liftM (compileQuery query entity)) s = (.error failure, s) := by
            rw [refused, eval_lift]
          rw [Session.all, eval_bind_ok asked', eval_bind_ok found, eval_bind_error refused']
      exact eval_bind_error step
  | insert record returning => cases reads
  | insertAll records returning => cases reads
  | update id rev changes returning => cases reads

theorem eval_write_rejected (writes : request.writes = true)
    (resolves : s.resolve ref = .ok entity) (rejected : request.check entity = .error failure) :
    eval (request.perform ref) s = eval (do let _ ← database entity; throw failure) s := by
  cases request with
  | all question fields => cases writes
  | insert record returning =>
      refine eval_write_fails _ resolves fun name m => ?_
      exact StoreM.eval_lift_error m rejected
  | insertAll records returning =>
      refine eval_write_fails _ resolves fun name m => ?_
      have unprepared : Write.prepareAll entity records = .error failure := by
        rcases Outcome.bind_eq_error.1 rejected with listless | ⟨items, listed, invalid⟩
        · exact Outcome.bind_eq_error.2 (.inl listless)
        · exact Outcome.bind_eq_error.2
            (.inr ⟨items, listed, Outcome.bind_eq_error.2 (.inl invalid)⟩)
      exact StoreM.eval_lift_error m unprepared
  | update id rev changes returning =>
      refine eval_write_fails _ resolves fun name m => ?_
      exact StoreM.eval_lift_error m (Outcome.bind_pure_eq_error rejected)

theorem eval_opened_rejected (resolves : s.resolve ref = .ok entity)
    (rejected : request.check entity = .error failure)
    (opened : s.opened.contains (s.settings.databaseName entity.source) = true) :
    eval (request.perform ref) s = (.error failure, s) := by
  cases writes : request.writes with
  | false => exact eval_read_rejected writes resolves rejected
  | true =>
      rw [eval_write_rejected writes resolves rejected, eval_bind_ok (eval_database_opened opened)]
      rfl

theorem eval_unopened_pending (writes : request.writes = true)
    (resolves : s.resolve ref = .ok entity) (rejected : request.check entity = .error failure)
    (unopened : ¬ s.opened.contains (s.settings.databaseName entity.source) = true)
    {fault : Fault} (pending : s.memory.pendingFailure = some fault) :
    eval (request.perform ref) s =
      (.error (.fault fault), { s with memory := { s.memory with pendingFailure := none } }) := by
  rw [eval_write_rejected writes resolves rejected]
  exact eval_bind_error (eval_database_pending unopened pending)

theorem failsUncalled_iff (resolves : s.resolve ref = .ok entity)
    (rejected : request.check entity = .error failure) :
    FailsUncalled (request.perform ref) s failure ↔
      request.writes = false ∨
        s.opened.contains (s.settings.databaseName entity.source) = true := by
  have resolves' : ∀ m, { s with memory := m }.resolve ref = .ok entity :=
    fun m => (resolve_memory s ref m).trans resolves
  constructor
  · intro uncalled
    by_contra exempt
    rw [not_or, Bool.not_eq_false] at exempt
    let failing : Memory := { s.memory with pendingFailure := some Memory.injectedFailure }
    have raised := eval_unopened_pending (s := { s with memory := failing }) exempt.1
      (resolves' failing) rejected exempt.2 rfl
    have pending := congrArg (·.2.memory.pendingFailure) (raised.symm.trans (uncalled failing))
    cases pending
  · rintro (reads | opened) m
    · exact eval_read_rejected reads (resolves' m) rejected
    · exact eval_opened_rejected (resolves' m) rejected opened

theorem eval_found_rejected {db : Database} (resolves : s.resolve ref = .ok entity)
    (rejected : request.check entity = .error failure) (free : s.memory.pendingFailure = none)
    (found : s.memory.databases.find? (.str (s.settings.databaseName entity.source)) = some db) :
    ∃ opened, eval (request.perform ref) s = (.error failure, { s with opened := opened }) := by
  cases writes : request.writes with
  | false => exact ⟨s.opened, eval_read_rejected writes resolves rejected⟩
  | true =>
      obtain ⟨opened, opens⟩ := eval_database free found
      refine ⟨opened, ?_⟩
      rw [eval_write_rejected writes resolves rejected, eval_bind_ok opens]
      rfl

/-- A request that is rejected raises the rejection without a call to the store exactly
if it is a query or its database was opened before.  Any other write calls the store
once, to open its database: it raises what that raises, or else the rejection, and the
store is left as it was. -/
theorem rejected_reaches_store_iff (resolves : s.resolve ref = .ok entity)
    (rejected : request.check entity = .error failure) :
    (FailsUncalled (request.perform ref) s failure ↔
      request.writes = false ∨
        s.opened.contains (s.settings.databaseName entity.source) = true) ∧
    (request.writes = true →
      eval (request.perform ref) s = eval (do let _ ← database entity; throw failure) s) ∧
    ∀ db, s.memory.pendingFailure = none →
      s.memory.databases.find? (.str (s.settings.databaseName entity.source)) = some db →
      ∃ opened, eval (request.perform ref) s = (.error failure, { s with opened := opened }) :=
  ⟨failsUncalled_iff resolves rejected,
    fun writes => eval_write_rejected writes resolves rejected,
    fun _ free found => eval_found_rejected resolves rejected free found⟩

end Request

end Rejected

/-- A record with an unknown field, while the database is open, and a query on a view that
is not declared, before it is. -/
theorem rejected_before_store :
    let strange : Request := .insert (.map [(.str "bogus", .int 1)]) (.list [])
    let stray : Request := .all (.filtered (.map [(.str "by_date", .int 1)])) .null
    let opened : Session := { Posts.session with opened := ["posts"] }
    ∃ failure failure', strange.check Posts.entity = .error failure ∧
      stray.check Posts.entity = .error failure' ∧
      FailsUncalled (strange.perform (.declared Posts.entity)) opened failure ∧
      FailsUncalled (stray.perform (.declared Posts.entity)) Posts.session failure' := by
  intro strange stray opened
  obtain ⟨failure, invalid⟩ : ∃ failure, strange.check Posts.entity = .error failure := ⟨_, rfl⟩
  obtain ⟨failure', refused⟩ : ∃ failure, stray.check Posts.entity = .error failure := ⟨_, rfl⟩
  have resolves : opened.resolve (.declared Posts.entity) = .ok Posts.entity := rfl
  have resolves' : Posts.session.resolve (.declared Posts.entity) = .ok Posts.entity := rfl
  exact ⟨failure, failure', invalid, refused,
    (Request.rejected_reaches_store_iff resolves invalid).1.2 (.inr rfl),
    (Request.rejected_reaches_store_iff resolves' refused).1.2 (.inl rfl)⟩

/-- Without its database an insertion of a record with an unknown field fails on opening
it, and not on the record. -/
theorem rejected_after_opening :
    let strange : Request := .insert (.map [(.str "bogus", .int 1)]) (.list [])
    let fresh : Session := .start none .empty .defaults .empty
    ∃ failure, strange.check Posts.entity = .error failure ∧
      (eval (strange.perform (.declared Posts.entity)) fresh).1 =
        .error (Memory.missingDatabase "posts") ∧
      failure ≠ Memory.missingDatabase "posts" ∧
      ¬ FailsUncalled (strange.perform (.declared Posts.entity)) fresh failure := by
  intro strange fresh
  have raised : (eval (strange.perform (.declared Posts.entity)) fresh).1 =
      .error (Memory.missingDatabase "posts") := rfl
  obtain ⟨failure, invalid, other⟩ : ∃ failure, strange.check Posts.entity = .error failure ∧
      failure ≠ Memory.missingDatabase "posts" := ⟨_, rfl, by simp [Memory.missingDatabase]⟩
  refine ⟨failure, invalid, raised, other, fun uncalled => ?_⟩
  have answered := congrArg Prod.fst (uncalled fresh.memory)
  have same : Except.error (Memory.missingDatabase "posts") = Except.error failure :=
    raised.symm.trans answered
  exact other (Except.error.inj same).symm

end DocMapper.Session
