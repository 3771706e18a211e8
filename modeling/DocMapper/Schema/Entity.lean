import DocMapper.Schema.Declaration

/-!
# Entities

An entity is a document type whose documents live in one database.  Building one
adds what every entity has: the reserved fields for identifier and revision, and
a default design, named after the entity, with a view of all documents.
-/

namespace DocMapper

def idField : String := "_id"
def revField : String := "_rev"
def allView : String := "all"

structure Entity where
  name : Value
  /-- The database, before any prefix. -/
  source : Value
  fields : List Field
  designs : List Design
  description : Value

namespace Entity

def missingReserved (names : List Value) : List Field :=
  (if (Value.str idField).isAmong names then [] else [Field.plain idField .binaryId]) ++
  (if (Value.str revField).isAmong names then []
    else [{ Field.plain revField .string with readAfterWrites := true }])

def everyDocument : View := ⟨.str allView, [.str "string"]⟩

/-- The designs with a view of all documents in the one that bears the entity's
name; such a design is added if there is none. -/
def withDefaultDesign (name : Value) : List Design → List Design
  | [] => [⟨name, [everyDocument]⟩]
  | design :: rest =>
      if design.name.same name then
        match design.findView? (.str allView) with
        | some _ => design :: rest
        | none => { design with views := everyDocument :: design.views } :: rest
      else design :: withDefaultDesign name rest

def make (name source : Value) (fields : List Field) (designs : List Design)
    (description : Value) : Outcome Entity := do
  refuseIf (!name.truthy) .unnamedEntity
  refuseIf (!source.truthy) (.sourcelessEntity name)
  let names := fields.map Field.name
  refuseRepeated names (.repeatedField name)
  refuseRepeated (designs.map Design.name) (.repeatedDesign name)
  return ⟨name, source, missingReserved names ++ fields, withDefaultDesign name designs,
    description⟩

def idIndex (entity : Entity) : String := entity.source.text ++ "_id_index"

def fieldNames (entity : Entity) : List Value := entity.fields.map Field.name

def field? (entity : Entity) (name : Value) : Option Field :=
  entity.fields.find? fun field => field.name.same name

/-- The fields that hold embedded records; of fields with equal names the last
one counts. -/
def embeddedFields (entity : Entity) : List Field :=
  entity.fields.filter fun field => field.kind.embeds

def designNames (entity : Entity) : List Value := entity.designs.map Design.name

def defaultDesign (entity : Entity) : Value := entity.name

def views (entity : Entity) : List (Value × Value) :=
  entity.designs.flatMap fun design => design.views.map fun view => (design.name, view.name)

def viewKeyTypes? (entity : Entity) (design view : Value) : Option (List Value) := do
  let design ← entity.designs.find? fun d => d.name.same design
  let view ← design.findView? view
  return view.keyTypes

end Entity

mutual

def Field.toValue : Field → Value
  | ⟨name, kind, required, default, embed, readAfterWrites, description⟩ =>
      .ofFields <|
        [("name", name), ("kind", .str kind.name)] ++
        (if required then [("required", .bool true)] else []) ++
        (if default.isNull then [] else [("default", default)]) ++
        (match embed with
          | some embedded => [("embed", embedded.toValue)]
          | none => []) ++
        (if readAfterWrites then [("read_after_writes", .bool true)] else []) ++
        (if description.truthy then [("description", description)] else [])
termination_by structural x => x

def Embedded.toValue : Embedded → Value
  | ⟨name, fields, _⟩ => .ofFields [("name", name), ("fields", .list (Field.toValues fields))]
termination_by structural x => x

def Field.toValues : List Field → List Value
  | [] => []
  | field :: rest => field.toValue :: Field.toValues rest
termination_by structural x => x

end

def View.toValue (view : View) : Value :=
  .ofFields [("name", view.name), ("key_types", .list view.keyTypes)]

def Design.toValue (design : Design) : Value :=
  .ofFields [("name", design.name), ("views", .list (design.views.map View.toValue))]

def Entity.toValue (entity : Entity) : Value :=
  .ofFields [("name", entity.name), ("source", entity.source),
    ("fields", .list (Field.toValues entity.fields)),
    ("designs", .list (entity.designs.map Design.toValue)),
    ("description", entity.description)]

end DocMapper
