import DocMapper.Failure

/-!
# Declarations

An application declares its fields, the records embedded in documents, and the
views of its designs.  Names are usually texts, but any value that a schema file
gives is kept, so names are compared as values.  Every declaration is built by a
`make` function that refuses what is malformed.
-/

namespace DocMapper

inductive Kind where
  | string
  | integer
  | float
  | boolean
  | binaryId
  | json
  | list
  | embedsOne
  | embedsMany
  deriving DecidableEq, Repr

namespace Kind

def name : Kind → String
  | .string => "string"
  | .integer => "integer"
  | .float => "float"
  | .boolean => "boolean"
  | .binaryId => "binary_id"
  | .json => "json"
  | .list => "list"
  | .embedsOne => "embeds_one"
  | .embedsMany => "embeds_many"

def every : List Kind :=
  [.string, .integer, .float, .boolean, .binaryId, .json, .list, .embedsOne, .embedsMany]

def embeds : Kind → Bool
  | .embedsOne | .embedsMany => true
  | _ => false

theorem mem_every (kind : Kind) : kind ∈ every := by
  cases kind <;> simp [every]

end Kind

inductive DeclarationError where
  | unknownKind (given : Value)
  | unnamedField
  | embedMissing (kind : Kind) (field : Value)
  | embedUnexpected (kind : Kind) (field : Value)
  | unnamedEmbedded
  | repeatedEmbeddedField (embedded : Value)
  | unnamedView
  | keylessView (view : Value)
  | unnamedDesign
  | repeatedView (design : Value)
  | unnamedEntity
  | sourcelessEntity (entity : Value)
  | repeatedField (entity : Value)
  | repeatedDesign (entity : Value)
  deriving BEq, Repr

def DeclarationError.message : DeclarationError → String
  | .unknownKind given => "Invalid field kind: " ++ given.text
  | .unnamedField => "Field name cannot be empty"
  | .embedMissing kind field =>
      "embed schema required for " ++ kind.name ++ " field '" ++ field.text ++ "'"
  | .embedUnexpected kind field =>
      "Field '" ++ field.text ++ "' of kind " ++ kind.name ++ " cannot embed"
  | .unnamedEmbedded => "Embedded schema name cannot be empty"
  | .repeatedEmbeddedField embedded =>
      "Duplicate field name in embedded schema '" ++ embedded.text ++ "'"
  | .unnamedView => "View name cannot be empty"
  | .keylessView view => "View '" ++ view.text ++ "' must declare at least one key type"
  | .unnamedDesign => "Design name cannot be empty"
  | .repeatedView design => "Duplicate view name in design '" ++ design.text ++ "'"
  | .unnamedEntity => "Entity name cannot be empty"
  | .sourcelessEntity entity => "Entity '" ++ entity.text ++ "' must name its database"
  | .repeatedField entity => "Duplicate field name in entity '" ++ entity.text ++ "'"
  | .repeatedDesign entity => "Duplicate design name in entity '" ++ entity.text ++ "'"

def refuseIf (condition : Bool) (error : DeclarationError) : Outcome Unit :=
  if condition then .error (.badValue error.message) else .ok ()

def refuseRepeated (names : List Value) (error : DeclarationError) : Outcome Unit := do
  if !names.all Value.hashable then .error .wrongType
  refuseIf ((Value.distinctKeys names).length != names.length) error

def Kind.ofValue (given : Value) : Outcome Kind :=
  match Kind.every.find? fun kind => (Value.str kind.name).same given with
  | some kind => .ok kind
  | none => .error (.badValue (DeclarationError.unknownKind given).message)

/-- A type whose instances materialize embedded records.  A field without a
default has to be given. -/
structure RecordType where
  name : String
  fields : List (String × Option Value)
  deriving BEq, Repr

/-- An instance built from named parts: all of them must be fields, and all
fields without a default must be among them. -/
def RecordType.instantiate (type : RecordType) (parts : List (Value × Value)) :
    Outcome Value := do
  if !parts.all fun p => type.fields.any fun f => (Value.str f.1).sameKey p.1 then
    .error .wrongType
  let fields ← type.fields.mapM fun (field, default) =>
    match Keyed.find? parts (.str field), default with
    | some value, _ => .ok (field, value)
    | none, some value => .ok (field, value)
    | none, none => .error .wrongType
  return .record type.name fields

/-! ## Fields and embedded records -/

mutual

structure Field where
  name : Value
  kind : Kind
  required : Bool
  /-- Taken when the field is not given; null stands for no default. -/
  default : Value
  embed : Option Embedded
  /-- The value is assigned by the store. -/
  readAfterWrites : Bool
  description : Value

structure Embedded where
  name : Value
  fields : List Field
  recordType : Option RecordType

end

def Field.make (name : Value) (kind : Kind) (required : Bool) (default : Value)
    (embed : Option Embedded) (readAfterWrites : Bool) (description : Value) :
    Outcome Field := do
  refuseIf (!name.truthy) .unnamedField
  refuseIf (kind.embeds && embed.isNone) (.embedMissing kind name)
  refuseIf (embed.isSome && !kind.embeds) (.embedUnexpected kind name)
  return ⟨name, kind, required, default, embed, readAfterWrites, description⟩

def Field.plain (name : String) (kind : Kind) : Field :=
  ⟨.str name, kind, false, .null, none, false, .str ""⟩

def Embedded.fieldNames (embedded : Embedded) : List Value := embedded.fields.map Field.name

def Embedded.make (name : Value) (fields : List Field) (recordType : Option RecordType) :
    Outcome Embedded := do
  refuseIf (!name.truthy) .unnamedEmbedded
  refuseRepeated (fields.map Field.name) (.repeatedEmbeddedField name)
  return ⟨name, fields, recordType⟩

structure View where
  name : Value
  keyTypes : List Value
  deriving BEq, Repr

def View.make (name : Value) (keyTypes : List Value) : Outcome View := do
  refuseIf (!name.truthy) .unnamedView
  refuseIf keyTypes.isEmpty (.keylessView name)
  return ⟨name, keyTypes⟩

structure Design where
  name : Value
  views : List View
  deriving BEq, Repr

def Design.make (name : Value) (views : List View) : Outcome Design := do
  refuseIf (!name.truthy) .unnamedDesign
  refuseRepeated (views.map View.name) (.repeatedView name)
  return ⟨name, views⟩

def Design.findView? (design : Design) (name : Value) : Option View :=
  design.views.find? fun view => view.name.same name

end DocMapper
