import DocMapper.Schema.Entity
import DocMapper.Value.Access

/-!
# Records and documents

A record is written as a document by replacing nested records with maps and
tuples with lists, and every key by its text; no key is dropped.  A document is
read back field by field, in the order in which fields are asked for, and the
values of embedded fields become records again.
-/

namespace DocMapper

/-- A stored document, or the named values of a record. -/
abbrev Document := Entries

def recordFields (record : Value) : Outcome Entries :=
  match record with
  | .map entries => .ok entries
  | record =>
      match record.fields? with
      | some fields => .ok (fields.map fun f => (.str f.1, f.2))
      | none =>
          .error (.badType ("Record must be a mapping or a dataclass instance, got " ++
            record.typeName))

mutual

def encodeValue : Value → Value
  | .list items | .tuple items => .list (encodeValues items)
  | .map entries | .readOnly entries => .map (Keyed.ofPairs (encodeEntries entries))
  | .record _ fields => .map (encodeNamed fields)
  | .eq view value | .atLeast view value | .atMost view value =>
      .ofFields [("view", encodeValue view), ("value", encodeValue value)]
  | .isIn view values =>
      .ofFields [("view", encodeValue view), ("values", .list (encodeValues values))]
  | .compare view op value =>
      .ofFields [("view", encodeValue view), ("op", encodeValue op), ("value", encodeValue value)]
  | .all parts => .ofFields [("predicates", .list (encodeValues parts))]
  | v => v
termination_by structural x => x

def encodeValues : List Value → List Value
  | [] => []
  | v :: vs => encodeValue v :: encodeValues vs
termination_by structural x => x

def encodeEntries : List (Value × Value) → List (Value × Value)
  | [] => []
  | (k, v) :: rest => (.str k.text, encodeValue v) :: encodeEntries rest
termination_by structural x => x

def encodeNamed : List (String × Value) → List (Value × Value)
  | [] => []
  | (f, v) :: rest => (.str f, encodeValue v) :: encodeNamed rest
termination_by structural x => x

end

def encodeRecord (record : Value) : Outcome Document := do
  return Keyed.ofPairs (encodeEntries (← recordFields record))

/-- An embedded record from its part of a document.  Keys that are not declared
are passed over, and declared ones that are missing take the default of the
record type, or null without one. -/
def loadRecord (embedded : Embedded) (value : Value) : Outcome Value :=
  match value.entries? with
  | none =>
      .error (.badType ("Embedded " ++ embedded.name.text ++ " must be a mapping, got " ++
        value.typeName))
  | some entries =>
      match embedded.recordType with
      | some type =>
          type.instantiate (embedded.fieldNames.filterMap fun name =>
            (entries.find? name).map fun value => (name, value))
      | none =>
          .ok (.map (Keyed.ofPairs (embedded.fieldNames.map fun name =>
            (name, .ofOption (entries.find? name)))))

def loadRecords (embedded : Embedded) (value : Value) : Outcome Value :=
  match value with
  | .list items => do return .list (← items.mapM (loadRecord embedded))
  | value =>
      .error (.badType ("Embedded " ++ embedded.name.text ++ " list must be a list, got " ++
        value.typeName))

def Field.load (field : Field) (value : Value) : Outcome Value :=
  match field.kind, field.embed with
  | .embedsOne, some embedded => loadRecord embedded value
  | .embedsMany, some embedded => loadRecords embedded value
  | _, _ => .ok value

def embeddedField? (fields : List Field) (name : Value) : Option Field :=
  (fields.filter fun field => field.kind.embeds).find? fun field => field.name.sameKey name

def decodeField (declared : List Field) (document name : Value) : Outcome Value := do
  let value ← document.get name.text
  name.requireHashable
  match embeddedField? declared name with
  | some field => if value.isNull then return value else field.load value
  | none => return value

def decodeDocument (declared : List Field) (document : Value) (names : List Value) :
    Outcome Entries :=
  names.foldlM (fun record name => do
    return Keyed.set record name (← decodeField declared document name)) []

def declaredFields : Option Entity → List Field
  | some entity => entity.fields
  | none => []

end DocMapper
