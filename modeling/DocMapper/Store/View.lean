import DocMapper.Store.Database
import DocMapper.Value.Collation

/-!
# Views

The rows of a view are the emitted keys of all live documents, in view order and
then by identifier.  Options select rows by one key, by a set of keys in the
order of the set, or by the bounds of a range.
-/

namespace DocMapper

structure Row where
  id : Value
  key : Value
  value : Value
  document : Entries
  deriving BEq, Repr

def ViewMap.emitted : ViewMap → Entries → Option (Value × Value)
  | .byIdentifier, fields => (fields.find? (.str idField)).map fun id => (id, .map fields)
  | .byField name, fields => (fields.find? (.str name)).map fun key => (key, .null)

def ViewMap.row? (view : ViewMap) (id : Value) (fields : Entries) : Option Row :=
  (view.emitted fields).map fun (key, value) => ⟨id, key, value, fields⟩

namespace Row

def less? (a b : Row) : Option Bool :=
  match a.key.collation.order? b.key.collation with
  | some .eq => a.id.less? b.id
  | order => order.map (· == .lt)

def isAt (row : Row) (place : Collation) (accepts : Ordering → Bool) : Outcome Bool :=
  match row.key.collation.order? place with
  | some order => .ok (accepts order)
  | none => .error .wrongType

def hasKey (row : Row) (key : Value) : Bool := row.key.same key

end Row

namespace Database

def emittedRows (db : Database) (view : ViewMap) : Outcome (List Row) := do
  let documents ← db.documents.filterM fun d => do return !(← isDesignId d.1)
  return documents.filterMap fun d => view.row? d.1 d.2.fields

def rows (db : Database) (view : ViewMap) : Outcome (List Row) := do
  .ofOption .wrongType (sorted? Row.less? (← db.emittedRows view))

end Database

/-! ## Selecting rows -/

def selectRange (options : Value) (rows : List Row) : Outcome (List Row) := do
  let rows ←
    if ← options.holds (.str "startkey") then
      let place := (← options.part "startkey").collation
      rows.filterM fun row => row.isAt place (· != .lt)
    else pure rows
  if ← options.holds (.str "endkey") then
    let place := (← options.part "endkey").collation
    rows.filterM fun row => row.isAt place (· != .gt)
  else return rows

def selectRows (options : Value) (rows : List Row) : Outcome (List Row) := do
  if ← options.holds (.str "key") then
    if rows.isEmpty then return []
    else
      let key ← options.part "key"
      return rows.filter fun row => row.hasKey key
  else if ← options.holds (.str "keys") then
    let keys ← (← options.part "keys").items
    return keys.flatMap fun key => rows.filter fun row => row.hasKey key
  else selectRange options rows

def Row.toValue (row : Row) (options : Value) : Outcome Value := do
  let withDocument := (← options.get "include_docs").truthy
  return .ofFields
    ([("id", row.id), ("key", row.key), ("value", row.value)] ++
      (if withDocument then [("doc", .map row.document)] else []))

/-- The answers to the selected rows.  A row can be answered once; `answered`
lists the identifiers of those that were. -/
def answerRows (options : Value) (answered : List Value) : List Row → Outcome (List Value)
  | [] => .ok []
  | row :: rest => do
      if row.id.isAmong answered then .error .absentKey
      let answer ← row.toValue options
      return answer :: (← answerRows options (row.id :: answered) rest)

namespace Database

def missingView (design view : Value) : Failure :=
  .fault (.notFound (.str ("Not found: view '" ++ design.text ++ "/" ++ view.text ++ "'"))
    (.str "missing_named_view"))

def fetchView (db : Database) (design view options : Value) : Outcome (List Value) := do
  let name : Value := .tuple [design, view]
  name.requireHashable
  match db.views.find? name with
  | some map => answerRows options [] (← selectRows options (← db.rows map))
  | none => .error (missingView design view)

end Database

end DocMapper
