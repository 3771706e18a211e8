import DocMapper.Record.Codec

/-!
# Projecting rows

A row of a view carries its document.  Projection decodes the requested fields
of each row's document, in the order of the rows, up to the first row that has
no document or whose document cannot be decoded.
-/

namespace DocMapper

def projectRow (declared : List Field) (names : Outcome (List Value)) (row : Value) :
    Outcome Entries := do
  let document ← row.get "doc"
  if document.isNull then
    let id ← row.get "id"
    let message :=
      "View row '" ++ id.text ++ "' has no document; was include_docs requested?"
    .error (.fault (.dataIntegrity (.str message) (.map (← row.asEntries))))
  decodeDocument declared document (← names)

/-- The records of the rows before the first failure, and that failure. -/
def projectRows (declared : List Field) (names : Outcome (List Value)) :
    List Value → List Entries × Option Failure
  | [] => ([], none)
  | row :: rest =>
      match projectRow declared names row with
      | .ok record =>
          let (records, failure) := projectRows declared names rest
          (record :: records, failure)
      | .error failure => ([], some failure)

def project (entity : Option Entity) (fields rows : Value) : List Entries × Option Failure :=
  match rows.items with
  | .ok rows => projectRows (declaredFields entity) fields.items rows
  | .error failure => ([], some failure)

/-- A projection bound to a list of fields, which is read at once. -/
def boundProject (entity : Option Entity) (fields rows : Value) :
    Outcome (List Entries × Option Failure) := do
  return project entity (.list (← fields.items)) rows

def projectAll (declared : List Field) (names : List Value) (rows : List Value) :
    Outcome (List Entries) :=
  match projectRows declared (.ok names) rows with
  | (records, none) => .ok records
  | (_, some failure) => .error failure

end DocMapper
