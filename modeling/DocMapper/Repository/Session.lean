import DocMapper.Query.Compile
import DocMapper.Record.Project
import DocMapper.Schema.Registry
import DocMapper.Settings.Basic
import DocMapper.Store.Memory

/-!
# Sessions

A session of an application with a store: the registries in which entities are
looked up, the settings that name databases, the databases already opened, and
the store itself.
-/

namespace DocMapper

inductive EntityRef where
  | named (name : Value)
  | declared (entity : Entity)

structure Session where
  own : Option Registry
  shared : Registry
  usesOwn : Bool
  settings : StoreSettings
  /-- The names of databases that were opened; they are not opened again. -/
  opened : List String
  memory : Memory

abbrev SessionM := ExceptT Failure (StateM Session)

namespace Session

/-- A registry that is empty at the start is passed over for the shared one. -/
def start (own : Option Registry) (shared : Registry) (settings : StoreSettings)
    (memory : Memory) : Session :=
  let usesOwn := match own with
    | some registry => registry.size != 0
    | none => false
  ⟨own, shared, usesOwn, settings, [], memory⟩

def registry (session : Session) : Registry :=
  match session.usesOwn, session.own with
  | true, some registry => registry
  | _, _ => session.shared

def onStore {α : Type} (action : StoreM α) : SessionM α := do
  let (outcome, memory) := (action.run).run (← get).memory
  modify fun s => { s with memory := memory }
  liftM outcome

def report (record : LogRecord) : SessionM Unit := onStore (Memory.report record)

def register (entity : Entity) : SessionM Unit := do
  match (← get).own with
  | some registry =>
      let registry ← liftM (registry.register entity)
      modify fun s => { s with own := some registry }
      report (Registry.registered entity)
  | none => throw .noSuchPart

def registerShared (entity : Entity) : SessionM Unit := do
  let registry ← liftM ((← get).shared.register entity)
  modify fun s => { s with shared := registry }
  report (Registry.registered entity)

def entity : EntityRef → SessionM Entity
  | .named name => do liftM ((← get).registry.require name)
  | .declared entity => return entity

def database (entity : Entity) : SessionM String := do
  let name := (← get).settings.databaseName entity.source
  if (← get).opened.contains name then return name
  else
    onStore (Memory.openDatabase name)
    modify fun s => { s with opened := name :: s.opened }
    return name

end Session

end DocMapper
