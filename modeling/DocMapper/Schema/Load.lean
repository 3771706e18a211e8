import DocMapper.Schema.Entity
import DocMapper.Value.Access

/-!
# Loading schemas

A schema is a map with a list of embedded record schemas and a list of entities.
Embedded schemas are named by the fields that use them and must come before
their use.  What is malformed inside an entity is reported with its name.
-/

namespace DocMapper

def partItems (raw : Value) (name : String) : Outcome (List Value) := do
  let part ← raw.get name
  if part.truthy then part.items else return []

/-- Embedded schemas by name; of equal names the last one counts. -/
abbrev EmbeddedTable := List (Value × Embedded)

def EmbeddedTable.find? (table : EmbeddedTable) (name : Value) : Option Embedded :=
  (List.find? (fun e => e.1.sameKey name) table).map Prod.snd

def fieldPlace (owner : Value) (raw : Value) : Outcome String := do
  return owner.text ++ "." ++ (← raw.get "name").text

def loadKind (owner raw : Value) : Outcome Kind := do
  let given ← raw.getOr "kind" (.str "")
  match Kind.ofValue given with
  | .ok kind => return kind
  | .error (.badValue message) =>
      .error (.badSchema ((← fieldPlace owner raw) ++ ": " ++ message))
  | .error failure => .error failure

def loadEmbed (table : EmbeddedTable) (owner raw : Value) : Outcome Embedded := do
  let name ← raw.get "embed"
  name.requireHashable
  match table.find? name with
  | some embedded => return embedded
  | none =>
      .error (.badSchema
        ((← fieldPlace owner raw) ++ ": unknown embedded schema '" ++ name.text ++ "'"))

def loadField (table : EmbeddedTable) (owner raw : Value) : Outcome Field := do
  let kind ← loadKind owner raw
  let embed ← if kind.embeds then some <$> loadEmbed table owner raw else pure none
  Field.make (← raw.getOr "name" (.str "")) kind (← raw.getOr "required" (.bool false)).truthy
    (← raw.get "default") embed (← raw.getOr "read_after_writes" (.bool false)).truthy
    (← raw.getOr "description" (.str ""))

def loadFields (table : EmbeddedTable) (owner raw : Value) : Outcome (List Field) := do
  (← partItems raw "fields").mapM (loadField table owner)

def loadView (raw : Value) : Outcome View := do
  View.make (← raw.getOr "name" (.str "")) (← partItems raw "key_types")

def loadDesign (raw : Value) : Outcome Design := do
  let views ← (← partItems raw "views").mapM loadView
  Design.make (← raw.getOr "name" (.str "")) views

def loadEmbedded (table : EmbeddedTable) (raw : Value) : Outcome EmbeddedTable := do
  let name ← raw.get "name"
  let embedded ← Embedded.make name (← loadFields table name raw) none
  name.requireHashable
  return (name, embedded) :: table

/-- A malformed declaration inside an entity, reported with the entity's name. -/
def insideEntity {α : Type} (name : Value) : Outcome α → Outcome α
  | .error (.badValue message) =>
      .error (.badSchema ("Entity '" ++ name.text ++ "': " ++ message))
  | outcome => outcome

def loadEntity (table : EmbeddedTable) (raw : Value) : Outcome Entity := do
  let name ← raw.get "name"
  insideEntity name do
    let source ← raw.getOr "source" (.str "")
    let fields ← loadFields table name raw
    let designs ← (← partItems raw "designs").mapM loadDesign
    Entity.make name source fields designs (← raw.getOr "description" (.str ""))

def loadSchema (data : Value) : Outcome (List Entity) :=
  match data with
  | .map _ => do
      let table ← (← partItems data "embedded").foldlM loadEmbedded []
      (← partItems data "entities").mapM (loadEntity table)
  | _ => .error (.badSchema "Schema must be a mapping")

end DocMapper
