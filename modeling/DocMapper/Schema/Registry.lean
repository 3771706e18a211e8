import DocMapper.Schema.Entity
import DocMapper.Json.Writer
import DocMapper.Digest.Sha256
import DocMapper.Logging.Record

/-!
# Registry

The entities of an application, by name and by database.  A registry that is
frozen takes no more entities and has a fingerprint: the digest of the canonical
text of all its declarations.
-/

namespace DocMapper

structure Registry where
  /-- In the order of registration. -/
  byName : Keyed Entity
  /-- The same entities under their sources. -/
  bySource : Keyed Entity
  frozen : Bool
  /-- Taken when the registry is frozen. -/
  fingerprint : Option String

/-- An operation on a registry.  What it changed before a failure stays changed. -/
abbrev RegistryM := ExceptT Failure (StateM Registry)

namespace Registry

def empty : Registry := ⟨[], [], false, none⟩

def entities (registry : Registry) : List Entity := registry.byName.map Prod.snd

def size (registry : Registry) : Nat := registry.byName.length

/-- The registry that an operation leaves, if it succeeds. -/
def after {α : Type} (registry : Registry) (action : RegistryM α) : Outcome Registry :=
  match (action.run.run registry : Outcome α × Registry) with
  | (.ok _, registry) => .ok registry
  | (.error failure, _) => .error failure

def find? (registry : Registry) (name : Value) : Option Entity := registry.byName.find? name

def findBySource? (registry : Registry) (source : Value) : Option Entity :=
  registry.bySource.find? source

def get (registry : Registry) (name : Value) : Outcome (Option Entity) := do
  name.requireHashable
  return registry.find? name

def getBySource (registry : Registry) (source : Value) : Outcome (Option Entity) := do
  source.requireHashable
  return registry.findBySource? source

def require (registry : Registry) (name : Value) : Outcome Entity := do
  match ← registry.get name with
  | some entity => return entity
  | none => .error (.unknownName ("Unknown entity '" ++ name.text ++ "'"))

def requireNew (registry : Registry) (entity : Entity) : Outcome Unit := do
  if registry.frozen then
    .error (.registryFrozen "Cannot register: registry is frozen")
  if (← registry.get entity.name).isSome then
    .error (.alreadyRegistered ("entity '" ++ entity.name.text ++ "' already registered"))
  match ← registry.getBySource entity.source with
  | some existing =>
      .error (.alreadyRegistered ("database '" ++ entity.source.text ++
        "' already registered for '" ++ existing.name.text ++ "'"))
  | none => return ()

/-- An entity is entered by name and then by source, if neither is taken. -/
def enter (entity : Entity) : RegistryM Entity := do
  liftM ((← MonadState.get).requireNew entity)
  modify fun r => { r with byName := r.byName.set entity.name entity }
  modify fun r => { r with bySource := r.bySource.set entity.source entity }
  return entity

def register (registry : Registry) (entity : Entity) : Outcome Registry :=
  registry.after (enter entity)

def registered (entity : Entity) : LogRecord :=
  ⟨.debug, "couchview.schema.registry", "Entity registered",
    [("entity", entity.name), ("source", entity.source),
      ("views", .list (entity.views.map fun v => .tuple [v.1, v.2]))]⟩

def toValue (registry : Registry) : Outcome Value := do
  let names ← Value.sorted (registry.byName.map Prod.fst)
  let entities := names.filterMap registry.find?
  return .ofFields [("entities", .list (entities.map Entity.toValue))]

def toJson (registry : Registry) (style : Json.Style) : Outcome String := do
  (← registry.toValue).jsonText style true

/-- The digest of the canonical text: compact JSON with sorted members. -/
def computeFingerprint (registry : Registry) : Outcome String := do
  return "sha256:" ++ Digest.sha256Text (← registry.toJson .compact)

def lock : RegistryM String := do
  let registry ← MonadState.get
  if registry.frozen then throw (.registryFrozen "Registry is already frozen")
  let fingerprint ← liftM registry.computeFingerprint
  modify fun r => { r with fingerprint := some fingerprint }
  modify fun r => { r with frozen := true }
  return fingerprint

def freeze (registry : Registry) : Outcome Registry := registry.after lock

end Registry

end DocMapper
