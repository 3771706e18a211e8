import DocMapper.Record.Codec
import DocMapper.Text.Similar

/-!
# Validating records

A record is checked against its entity before it is encoded: it may hold only
declared fields, must hold the required ones, and its embedded values must have
the shape of the records they stand for.
-/

namespace DocMapper

inductive RecordProblem where
  | unknownField (name : Value) (suggestions : List Value)
  | missingField (name : Value)
  | notList (field : Value) (given : String)
  | notRecord (place : String) (embedded : Value) (given : String)
  | unknownParts (place : String) (embedded : Value) (parts : List Value)
  deriving BEq, Repr

def RecordProblem.message : RecordProblem → String
  | .unknownField name [] => "Unknown field '" ++ name.text ++ "'"
  | .unknownField name suggestions =>
      "Unknown field '" ++ name.text ++ "'. Did you mean: " ++
        (Value.list suggestions).display ++ "?"
  | .missingField name => "Field '" ++ name.text ++ "' is required"
  | .notList field given => "Field '" ++ field.text ++ "' must be a list, got " ++ given
  | .notRecord place embedded given =>
      "Field '" ++ place ++ "' must be a " ++ embedded.text ++ " record, got " ++ given
  | .unknownParts place embedded parts =>
      "Field '" ++ place ++ "' has unknown " ++ embedded.text ++ " fields: " ++
        (Value.list parts).display

structure Letter where
  value : Value

instance : BEq Letter := ⟨fun a b => a.value.sameKey b.value⟩

def letters (name : Value) : Outcome (List Letter) := do
  return (← name.items).map Letter.mk

def suggestionsFor (name : Value) (known : List Value) : Outcome (List Value) := do
  let word ← letters name
  let candidates ← known.mapM fun k => do return (k, ← letters k)
  return Text.closest 3 (fun a b => b.less? a == some true) word candidates

def asMap (value : Value) : Outcome Value :=
  match value.fields? with
  | some fields => do
      let _ ← value.copied
      return .ofFields fields
  | none => .ok value

def checkRecord (place : String) (embedded : Embedded) (value : Value) :
    Outcome (Option RecordProblem) := do
  match ← asMap value with
  | .map entries =>
      let unknown := (entries.map Prod.fst).filter fun key =>
        !embedded.fieldNames.any fun name => name.sameKey key
      if unknown.isEmpty then return none
      else return some (.unknownParts place embedded.name (← Value.sorted unknown))
  | value => return some (.notRecord place embedded.name value.typeName)

def checkRecords (field : Value) (embedded : Embedded) :
    Nat → List Value → Outcome (Option RecordProblem)
  | _, [] => .ok none
  | index, item :: rest => do
      let place := field.text ++ "[" ++ toString index ++ "]"
      match ← checkRecord place embedded item with
      | some problem => return some problem
      | none => checkRecords field embedded (index + 1) rest

/-- The problem of an embedded value, if it has one; null is always accepted. -/
def Field.check (field : Field) (value : Value) : Outcome (Option RecordProblem) :=
  match field.kind, field.embed with
  | .embedsOne, some embedded =>
      if value.isNull then .ok none else checkRecord field.name.text embedded value
  | .embedsMany, some embedded =>
      match value with
      | .null => .ok none
      | .list items | .tuple items => checkRecords field.name embedded 0 items
      | value => .ok (some (.notList field.name value.typeName))
  | _, _ => .ok none

def unknownProblems (entity : Entity) (values : Entries) : Outcome (List RecordProblem) := do
  let unknown := (values.map Prod.fst).filter fun name =>
    !entity.fieldNames.any fun known => known.sameKey name
  unknown.mapM fun name => do
    return .unknownField name (← suggestionsFor name entity.fieldNames)

def fieldProblems (values : Entries) (isPartial : Bool) (field : Field) :
    Outcome (List RecordProblem) := do
  match values.find? field.name with
  | none =>
      if field.required && !isPartial && field.default.isNull then
        return [.missingField field.name]
      else return []
  | some value => return (← field.check value).toList

/-- All problems of a record: unknown fields in the order of the record, then
those of the declared fields in the order of declaration.  Of a partial record
no field is required. -/
def recordProblems (entity : Entity) (record : Value) (isPartial : Bool) :
    Outcome (List RecordProblem) := do
  let values ← recordFields record
  let unknown ← unknownProblems entity values
  let declared ← entity.fields.mapM (fieldProblems values isPartial)
  return unknown ++ declared.flatten

/-- Fails with the first unknown field, or else with all problems together. -/
def validate (entity : Entity) (record : Value) (isPartial : Bool) : Outcome Unit := do
  let values ← recordFields record
  match (values.map Prod.fst).find? fun name => !name.isAmong entity.fieldNames with
  | some name =>
      let suggestions ← suggestionsFor name entity.fieldNames
      .error (.fault (.unknownField name entity.name (.list suggestions)))
  | none =>
      let problems ← recordProblems entity (.map values) isPartial
      let messages := problems.map RecordProblem.message
      if messages.isEmpty then return ()
      else
        let message :=
          "Validation failed for " ++ entity.name.text ++ ": " ++ joinTexts "; " messages
        .error (.fault (.validation (.str message) .null (.strings messages)))

end DocMapper
