import DocMapper.Http.Exchange
import DocMapper.Schema.DesignDocument
import DocMapper.Store.BatchItem

/-!
# Remote operations

The exchange of each operation on a remote store.  Every name is one segment of
a path, except that the identifier of a design document keeps its slash.
-/

namespace DocMapper.Remote

def databasePath (db : String) : String := "/" ++ Percent.encode db

def afterStart? (start s : String) : Option String :=
  if start.toList.isPrefixOf s.toList then
    some (String.ofList (s.toList.drop start.toList.length))
  else none

def documentSegments (id : String) : String :=
  match afterStart? designPrefix id with
  | some name => designPrefix ++ Percent.encode name
  | none => Percent.encode id

def documentPath (db id : String) : String := databasePath db ++ "/" ++ documentSegments id

def viewPath (db design view : String) : String :=
  databasePath db ++ "/" ++ designPrefix ++ Percent.encode design ++ "/_view/" ++
    Percent.encode view

def nameOf : Value → Outcome String
  | .str s => .ok s
  | _ => .error .wrongType

def identifierOf : Value → Outcome String
  | .str s => .ok s
  | .bytes _ => .error .wrongType
  | _ => .error .noSuchPart

def jsonOptions : List Value := [.str "key", .str "startkey", .str "endkey"]

def parameterValue (name value : Value) : Outcome String :=
  if name.isAmong jsonOptions then value.jsonText .oneLine false
  else
    match value with
    | .bool b => .ok (if b then "true" else "false")
    | value => .ok value.text

def isKeys (name : Value) : Bool := name.same (.str "keys")

/-- View options as parameters of a request; a set of keys is none of them. -/
def viewParameters (options : Value) : Outcome (List (String × String)) := do
  let entries ← options.mapping
  (entries.filter fun e => !isKeys e.1).mapM fun e => do
    return (e.1.text, ← parameterValue e.1 e.2)

/-- A revision as parameters; a list of revisions is repeated. -/
def revisionParameters (rev : Value) : List (String × String) :=
  let texts := match rev with
    | .list items | .tuple items => items
    | rev => [rev]
  texts.map fun v =>
    ("rev", match v with
      | .null => ""
      | .bool b => if b then "true" else "false"
      | v => v.text)

def databaseSubject (db : String) : String := "database '" ++ db ++ "'"

def databaseExchange (method : Method) (tolerated : List Nat) (db : String) :
    Exchange String :=
  ⟨.plain method (databasePath db), fun response =>
    if tolerated.contains response.status then .ok db
    else do
      response.check (databaseSubject db)
      return db⟩

def openDatabase (db : Value) : Outcome (Exchange String) := do
  return databaseExchange .head [] (← nameOf db)

/-- A database that exists is used as it is. -/
def createDatabase (db : Value) : Outcome (Exchange String) := do
  return databaseExchange .put [412] (← nameOf db)

/-- A database that does not exist counts as deleted. -/
def deleteDatabase (db : Value) : Outcome (Exchange String) := do
  return databaseExchange .delete [404] (← nameOf db)

def documentSubject (id : Value) : String := "document '" ++ id.text ++ "'"

def savedDocument (document body : Value) : Outcome Entries := do
  let entries ← document.mapping
  let id ← body.part "id"
  let rev ← body.part "rev"
  return Keyed.set (Keyed.set entries (.str idField) id) (.str revField) rev

def saveRequest (db : String) (id document : Value) : Outcome Request := do
  if id.isNull then
    return ⟨.post, databasePath db, [], some (← requestBody document)⟩
  else
    let path := documentPath db (← identifierOf id)
    return ⟨.put, path, [], some (← requestBody document)⟩

def save (db : String) (document : Value) : Outcome (Exchange Entries) := do
  let id ← document.get idField
  return ⟨← saveRequest db id document, fun response => do
    response.check (documentSubject id)
    savedDocument document (← response.json)⟩

def saveBatch (db : String) (documents : Value) : Outcome (Exchange (List BatchItem)) := do
  let body ← requestBody (.ofFields [("docs", documents)])
  return ⟨⟨.post, databasePath db ++ "/_bulk_docs", [], some body⟩, fun response => do
    response.check ("bulk save to '" ++ db ++ "'")
    (← (← response.json).items).mapM BatchItem.ofValue⟩

def delete (db : String) (id rev : Value) : Outcome (Exchange Value) := do
  let path := documentPath db (← identifierOf id)
  return ⟨⟨.delete, path, revisionParameters rev, none⟩, fun response => do
    response.check (documentSubject id)
    (← response.json).part "rev"⟩

def fetch (db : String) (id : Value) : Outcome (Exchange Value) := do
  let path := documentPath db (← identifierOf id)
  return ⟨.plain .get path, fun response => do
    response.check (documentSubject id)
    response.json⟩

/-- The rows of an answer, which has to be something with a length. -/
def rowsOf (body : Value) : Outcome Value := do
  let rows ← body.getOr "rows" (.list [])
  let _ ← rows.items
  return rows

/-- A set of keys travels in the body of a posted request. -/
def viewRequest (path : String) (options : Value) : Outcome Request := do
  let parameters ← viewParameters options
  match (← options.mapping).find? (.str "keys") with
  | some keys =>
      let body ← requestBody (.ofFields [("keys", .list (← keys.items))])
      return ⟨.post, path, parameters, some body⟩
  | none => return ⟨.get, path, parameters, none⟩

def fetchView (db : String) (design view options : Value) : Outcome (Exchange Value) := do
  let path := viewPath db (← nameOf design) (← nameOf view)
  return ⟨← viewRequest path options, fun response => do
    response.check ("view '" ++ design.text ++ "/" ++ view.text ++ "'")
    rowsOf (← response.json)⟩

end DocMapper.Remote
