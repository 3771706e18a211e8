import DocMapper.Schema.Load
import DocMapper.Schema.Registry
import DocMapper.Yaml.Block

/-!
# Schema files

The text of a schema file is read and its entities are registered one after the
other, if there is a registry to hold them.
-/

namespace DocMapper

def schemaOfText (text : String) : Outcome (List Entity) :=
  match Yaml.read? text with
  | some data => loadSchema (data.orElse (.map []))
  | none => .error (.misuse .malformedText)

/-- Registers entities up to the first that is refused. -/
def Registry.registerAll (registry : Registry) : List Entity → Registry × Outcome Unit
  | [] => (registry, .ok ())
  | entity :: rest =>
      match registry.register entity with
      | .ok registry => registry.registerAll rest
      | .error failure => (registry, .error failure)

def Registry.loadText (registry : Registry) (text : String) :
    Registry × Outcome (List Entity) :=
  match schemaOfText text with
  | .error failure => (registry, .error failure)
  | .ok entities =>
      match registry.registerAll entities with
      | (registry, .ok ()) => (registry, .ok entities)
      | (registry, .error failure) => (registry, .error failure)

end DocMapper
