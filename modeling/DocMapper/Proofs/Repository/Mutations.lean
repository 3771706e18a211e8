import DocMapper.Proofs.Repository.Read
import DocMapper.Repository.Write

/-!
# What writes keep

The writes of a session act on its store by operations of the store alone, and change
nothing else of the session but which databases were opened.  So a store that was
reachable is reachable after any sequence of writes, rejected ones included, and a
database stays in service.
-/

namespace DocMapper

open StoreM

namespace Memory

structure Steady (Q : Memory → Prop) (name : String) : Prop where
  report : ∀ record, Keeps Q (report record)
  openDatabase : Keeps Q (openDatabase name)
  fetch : ∀ id, Keeps Q (fetch name id)
  save : ∀ document, Keeps Q (save name document)
  saveBatch : ∀ documents, Keeps Q (saveBatch name documents)
  delete : ∀ id rev, Keeps Q (delete name id rev)

theorem Carries.steady {P : Database → Prop} {Q : Memory → Prop} {name : String}
    (carries : Carries P Q name) (lasting : Database.Lasting P)
    (calm : ∀ m, Q m → m.pendingFailure = none ∧ m.rival = none) : Steady Q name where
  report := carries.report
  openDatabase := carries.openDatabase
  fetch := keeps_fetch_calm calm name
  save := carries.save lasting
  saveBatch := carries.saveBatch lasting
  delete := carries.delete lasting

end Memory

namespace Write

open Memory

variable {Q : Memory → Prop} {name : String} (steady : Steady Q name) (entity : Entity)

include steady

theorem keeps_saveNew (document : Document) : Keeps Q (saveNew name document) := by
  refine Keeps.catch ?_ fun failure => ?_
  · rw [map_eq_pure_bind]
    exact (steady.save _).bind fun _ => keeps_pure _
  · split
    · exact keeps_pure _
    · exact keeps_throw _

theorem keeps_insert (record returning : Value) :
    Keeps Q (insert name entity record returning) := by
  refine (keeps_lift _).bind fun _ => (keeps_lift _).bind fun document => ?_
  refine (keeps_saveNew steady document).bind fun saved => ?_
  split
  · exact (steady.report _).bind fun _ => keeps_pure _
  · exact (keeps_lift _).bind fun _ => keeps_pure _

theorem keeps_insertAll (records returning : Value) :
    Keeps Q (insertAll name entity records returning) := by
  refine (keeps_lift _).bind fun documents => ?_
  split
  · exact keeps_pure _
  · refine (steady.saveBatch _).bind fun items => ?_
    have answered : ∀ answer : Unit, Keeps Q (do
        let rows ← (liftM (batchRows entity returning documents items) : StoreM _)
        return (⟨items.length - (rejectedItems items).length, rows, rejectedItems items⟩ :
          BatchResult)) :=
      fun _ => (keeps_lift _).bind fun _ => keeps_pure _
    dsimp only
    split
    · exact (steady.report _).bind answered
    · exact answered ()

theorem keeps_update (id rev changes returning : Value) :
    Keeps Q (update name entity id rev changes returning) := by
  refine (keeps_lift _).bind fun changes => ?_
  refine Keeps.bind ?_ fun current => ?_
  · refine Keeps.bind ?_ fun current => ?_
    · refine (steady.fetch id).catch fun failure => ?_
      split
      · exact keeps_throw _
      · exact keeps_throw _
    · dsimp only
      split
      · exact (steady.report _).bind fun _ => keeps_throw _
      · exact keeps_pure _
  · refine Keeps.bind ?_ fun saved => (keeps_lift _).bind fun _ => keeps_pure _
    refine (steady.save _).catch fun failure => ?_
    split
    · exact keeps_throw _
    · exact keeps_throw _

theorem keeps_delete (id rev : Value) : Keeps Q (delete name entity id rev) := by
  refine ((steady.delete id rev).bind fun _ => keeps_pure _).catch fun failure => ?_
  split
  · exact (steady.report _).bind fun _ => keeps_pure _
  · exact (steady.report _).bind fun _ => keeps_pure _
  · exact keeps_throw _

end Write

namespace Session

open SessionM

inductive Mutation where
  | insert (ref : EntityRef) (record returning : Value)
  | insertAll (ref : EntityRef) (records returning : Value)
  | update (ref : EntityRef) (id rev changes returning : Value)
  | delete (ref : EntityRef) (id rev : Value)

def Mutation.ref : Mutation → EntityRef
  | .insert ref _ _ | .insertAll ref _ _ | .update ref _ _ _ _ | .delete ref _ _ => ref

def Mutation.leaves (s : Session) : Mutation → Session
  | .insert ref record returning => (eval (Session.insert ref record returning) s).2
  | .insertAll ref records returning => (eval (Session.insertAll ref records returning) s).2
  | .update ref id rev changes returning =>
      (eval (Session.update ref id rev changes returning) s).2
  | .delete ref id rev => (eval (Session.delete ref id rev) s).2

/-- The store has the property, and all else but the opened databases is as in `base`. -/
def Within (base : Session) (Q : Memory → Prop) (s : Session) : Prop :=
  Q s.memory ∧ ∃ opened memory, s = { base with opened := opened, memory := memory }

section Within

variable {α : Type} {Q : Memory → Prop} {base s : Session}

theorem Within.settings_eq (within : base.Within Q s) : s.settings = base.settings := by
  obtain ⟨-, opened, memory, rfl⟩ := within
  rfl

theorem Within.resolve_eq (within : base.Within Q s) (ref : EntityRef) :
    s.resolve ref = base.resolve ref := by
  obtain ⟨-, opened, memory, rfl⟩ := within
  cases ref <;> rfl

theorem Within.onStore {action : StoreM α} (h : Keeps Q action) (within : base.Within Q s) :
    base.Within Q (SessionM.eval (Session.onStore action) s).2 := by
  rw [eval_onStore]
  obtain ⟨holds, opened, memory, rfl⟩ := within
  exact ⟨h _ holds, opened, _, rfl⟩

theorem Within.database {entity : Entity}
    (opens : Keeps Q (Memory.openDatabase (s.settings.databaseName entity.source)))
    (within : base.Within Q s) :
    base.Within Q (SessionM.eval (Session.database entity) s).2 := by
  rw [Session.database, eval_get, eval_get]
  split
  · exact within
  · have step := within.onStore opens
    rcases heval : SessionM.eval
      (Session.onStore (Memory.openDatabase (s.settings.databaseName entity.source))) s
      with ⟨failure | u, s'⟩ <;> rw [heval] at step
    · rw [eval_bind_error heval]
      exact step
    · rw [eval_bind_ok heval]
      obtain ⟨holds, opened, memory, rfl⟩ := step
      exact ⟨holds, _, memory, rfl⟩

theorem eval_database_name {entity : Entity} {name : String} {s' : Session}
    (opened : SessionM.eval (Session.database entity) s = (.ok name, s')) :
    name = s.settings.databaseName entity.source := by
  rw [Session.database, eval_get, eval_get] at opened
  split at opened
  · cases opened
    rfl
  · rcases heval : SessionM.eval
      (Session.onStore (Memory.openDatabase (s.settings.databaseName entity.source))) s
      with ⟨failure | u, s''⟩
    · rw [eval_bind_error heval] at opened
      cases opened
    · rw [eval_bind_ok heval] at opened
      cases opened
      rfl

theorem Within.write {act : Entity → String → SessionM α} {ref : EntityRef}
    (opens : ∀ entity, base.resolve ref = .ok entity →
      Keeps Q (Memory.openDatabase (base.settings.databaseName entity.source)))
    (keeps : ∀ entity, base.resolve ref = .ok entity → ∀ s, base.Within Q s →
      base.Within Q (SessionM.eval (act entity (base.settings.databaseName entity.source)) s).2)
    (within : base.Within Q s) :
    base.Within Q (SessionM.eval (do
      let entity ← Session.entity ref
      let db ← Session.database entity
      act entity db) s).2 := by
  cases resolves : s.resolve ref with
  | error failure =>
      rw [eval_bind_error (by rw [eval_entity, resolves])]
      exact within
  | ok entity =>
      have found : SessionM.eval (Session.entity ref) s = (.ok entity, s) := by
        rw [eval_entity, resolves]
      rw [within.resolve_eq] at resolves
      have opens := opens entity resolves
      have keeps := keeps entity resolves
      rw [← within.settings_eq] at opens keeps
      rw [eval_bind_ok found]
      have step := within.database opens
      rcases heval : SessionM.eval (Session.database entity) s with ⟨failure | name, s'⟩ <;>
        rw [heval] at step
      · rw [eval_bind_error heval]
        exact step
      · rw [eval_bind_ok heval]
        exact eval_database_name heval ▸ keeps s' step

def Confines (base : Session) (Q : Memory → Prop) (ref : EntityRef) : Prop :=
  ∀ entity, base.resolve ref = .ok entity →
    Memory.Steady Q (base.settings.databaseName entity.source)

theorem Within.leaves {mutation : Mutation} (confines : base.Confines Q mutation.ref)
    (within : base.Within Q s) : base.Within Q (mutation.leaves s) := by
  have opens := fun entity resolves => (confines entity resolves).openDatabase
  cases mutation with
  | insert ref record returning =>
      exact within.write opens fun entity resolves _ within =>
        within.onStore (Write.keeps_insert (confines entity resolves) entity record returning)
  | insertAll ref records returning =>
      exact within.write opens fun entity resolves _ within =>
        within.onStore (Write.keeps_insertAll (confines entity resolves) entity records returning)
  | update ref id rev changes returning =>
      exact within.write opens fun entity resolves _ within =>
        within.onStore
          (Write.keeps_update (confines entity resolves) entity id rev changes returning)
  | delete ref id rev =>
      exact within.write opens fun entity resolves _ within =>
        within.onStore (Write.keeps_delete (confines entity resolves) entity id rev)

theorem Within.run (within : base.Within Q s) (steady : ∀ name, Memory.Steady Q name)
    (mutations : List Mutation) : base.Within Q (mutations.foldl Mutation.leaves s) := by
  induction mutations generalizing s with
  | nil => exact within
  | cons mutation rest ih => exact ih (within.leaves fun _ _ => steady _)

end Within

end Session

end DocMapper
