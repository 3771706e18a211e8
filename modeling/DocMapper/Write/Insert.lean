import DocMapper.Record.Codec
import DocMapper.Record.Validate
import DocMapper.Store.Memory

/-!
# Inserting

A record is validated and encoded before any request is made.  An identifier
that is already taken is a result and not a failure.
-/

namespace DocMapper.Write

/-- Without a reserved field that is null, which is left to the store. -/
def withoutUnset (document : Document) (name : String) : Document :=
  match document.find? (.str name) with
  | some .null => document.erase (.str name)
  | _ => document

def withDefault (document : Document) (field : Field) : Outcome Document := do
  if field.default.isNull || document.has field.name then return document
  else return document.set field.name (encodeValue (← field.default.copied))

def prepare (entity : Entity) (record : Value) : Outcome Document := do
  let document ← encodeRecord record
  entity.fields.foldlM withDefault (withoutUnset (withoutUnset document idField) revField)

inductive InsertResult where
  | inserted (docId rev : Value) (returned : Entries)
  /-- The identifier is taken; the constraint names the violated index. -/
  | taken (docId : Value) (constraint : String)
  deriving BEq, Repr

def InsertResult.errors : InsertResult → List (String × String)
  | .inserted .. => []
  | .taken _ constraint => [("unique", constraint)]

def identifierTaken (entity : Entity) (docId : Value) : LogRecord :=
  ⟨.warning, "couchview.engine", "Insert rejected: identifier already taken",
    [("entity", entity.name), ("doc_id", docId), ("constraint", .str entity.idIndex)]⟩

def saveNew (db : String) (document : Document) : StoreM (Option Entries) :=
  tryCatch (some <$> Memory.save db (.map document)) fun
    | .fault (.conflict ..) => return none
    | failure => throw failure

def insertPrepared (db : String) (entity : Entity) (document : Document) (returning : Value) :
    StoreM InsertResult := do
  match ← saveNew db document with
  | none =>
      let docId := Database.identifierOf document
      Memory.report (identifierTaken entity docId)
      return .taken docId entity.idIndex
  | some saved =>
      let returned ← liftM do decodeDocument entity.fields (.map saved) (← returning.items)
      return .inserted (Database.identifierOf saved) (Database.revisionOf saved) returned

def insert (db : String) (entity : Entity) (record returning : Value) : StoreM InsertResult := do
  liftM (validate entity record false)
  insertPrepared db entity (← liftM (prepare entity record)) returning

/-! ## Many records -/

structure BatchResult where
  count : Nat
  rows : Option (List (Option Entries))
  failures : List (Nat × BatchItem)
  deriving BEq, Repr

def rejectedItems (items : List BatchItem) : List (Nat × BatchItem) :=
  (items.zipIdx.filter fun i => !i.1.ok).map fun i => (i.2, i.1)

def partlyRejected (entity : Entity) (rejected submitted : Nat) : LogRecord :=
  ⟨.warning, "couchview.engine", "Batch insert partially rejected",
    [("entity", entity.name), ("rejected", .int rejected), ("submitted", .int submitted)]⟩

def batchRow (entity : Entity) (names : List Value) (document : Document) (item : BatchItem) :
    Outcome (Option Entries) := do
  if item.ok then
    let saved := (document.set (.str idField) item.id).set (.str revField) item.rev
    return some (← decodeDocument entity.fields (.map saved) names)
  else return none

def batchRows (entity : Entity) (returning : Value) (documents : List Document)
    (items : List BatchItem) : Outcome (Option (List (Option Entries))) := do
  if returning.isNull then return none
  else
    let names ← returning.items
    return some (← (documents.zip items).mapM fun d => batchRow entity names d.1 d.2)

def insertAllPrepared (db : String) (entity : Entity) (documents : List Document)
    (returning : Value) : StoreM BatchResult := do
  let items ← Memory.saveBatch db (.list (documents.map .map))
  let failures := rejectedItems items
  if !failures.isEmpty then
    Memory.report (partlyRejected entity failures.length documents.length)
  let rows ← liftM (batchRows entity returning documents items)
  return ⟨items.length - failures.length, rows, failures⟩

/-- The documents of a batch: all records are validated before any is
prepared. -/
def prepareAll (entity : Entity) (records : Value) : Outcome (List Document) := do
  let records ← records.items
  records.forM fun record => validate entity record false
  records.mapM (prepare entity)

/-- Without records no request is made.  Null as the returned fields asks for
the count alone. -/
def insertAll (db : String) (entity : Entity) (records returning : Value) :
    StoreM BatchResult := do
  let documents ← liftM (prepareAll entity records)
  if documents.isEmpty then return ⟨0, if returning.isNull then none else some [], []⟩
  else insertAllPrepared db entity documents returning

end DocMapper.Write
