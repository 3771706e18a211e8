import DocMapper.Logging.Record
import DocMapper.Store.View

/-!
# Store in memory

A store that keeps its databases in memory.  Two aids let a single caller meet
what usually takes a failing network or a second writer: the next operation can
be made to fail, and another write can be made to happen right after the next
document is fetched.
-/

namespace DocMapper

/-- A write of somebody else to the document that is being fetched. -/
inductive Rival where
  | saves (changes : Value)
  | deletes
  deriving BEq, Repr

structure Memory where
  databases : Keyed Database
  /-- Raised by the next operation. -/
  pendingFailure : Option Fault
  /-- Acts after the next document is fetched. -/
  rival : Option Rival
  tokens : Tokens
  log : List LogRecord

def Memory.start (tokens : Tokens) : Memory := ⟨[], none, none, tokens, []⟩

def Memory.empty : Memory := .start .numbered

/-- An operation on the store.  What it changed before a failure stays changed. -/
abbrev StoreM := ExceptT Failure (StateM Memory)

namespace Memory

def report (record : LogRecord) : StoreM Unit :=
  modify fun m => { m with log := m.log ++ [record] }

def available : StoreM Unit := do
  match (← get).pendingFailure with
  | some fault =>
      modify fun m => { m with pendingFailure := none }
      throw (.fault fault)
  | none => pure ()

def missingDatabase (name : String) : Failure :=
  .fault (.notFound (.str ("Not found: database '" ++ name ++ "'"))
    (.str "Database does not exist."))

def database (name : String) : StoreM Database := do
  match (← get).databases.find? (.str name) with
  | some db => return db
  | none => throw (missingDatabase name)

def onDatabase {α : Type} (name : String) (step : Database → Tokens → Effect α) : StoreM α := do
  let db ← database name
  let effect := step db (← get).tokens
  modify fun m =>
    { m with databases := m.databases.set (.str name) effect.database, tokens := effect.tokens }
  liftM effect.outcome

/-- A database that exists is used as it is. -/
def createDatabase (name : String) : StoreM Unit :=
  modify fun m =>
    if m.databases.has (.str name) then m
    else { m with databases := m.databases.set (.str name) .empty }

def deleteDatabase (name : String) : StoreM Unit :=
  modify fun m => { m with databases := m.databases.erase (.str name) }

def openDatabase (name : String) : StoreM Unit := do
  available
  let _ ← database name

def defineView (name : String) (design view : Value) (map : ViewMap) : StoreM Unit :=
  onDatabase name fun db tokens =>
    ⟨.ok (), { db with views := db.views.set (.tuple [design, view]) map }, tokens⟩

/-! ## Documents -/

def documentSaved (name : String) (fields : Entries) : LogRecord :=
  ⟨.debug, "couchview.store.memory", "Document saved",
    [("db", .str name), ("doc_id", Database.identifierOf fields),
      ("rev", Database.revisionOf fields)]⟩

def save (name : String) (document : Value) : StoreM Entries := do
  available
  let fields ← onDatabase name fun db tokens => db.save tokens document
  report (documentSaved name fields)
  return fields

def saveBatch (name : String) (documents : Value) : StoreM (List BatchItem) := do
  available
  let _ ← database name
  let documents ← liftM documents.items
  onDatabase name fun db tokens => db.saveBatch tokens documents

def delete (name : String) (id rev : Value) : StoreM Revision := do
  available
  onDatabase name fun db tokens => db.delete tokens id rev

def Rival.act (name : String) (id : Value) (current : Entries) : Rival → StoreM Unit
  | .saves changes => do
      let _ ← save name (.map (Keyed.update current (← liftM changes.asEntries)))
  | .deletes => do
      let _ ← delete name id (Database.revisionOf current)

/-- The document as it is before a rival acts on it. -/
def fetch (name : String) (id : Value) : StoreM Entries := do
  available
  let current ← liftM ((← database name).fetch id)
  match (← get).rival with
  | some rival =>
      modify fun m => { m with rival := none }
      Rival.act name id current rival
  | none => pure ()
  return current

def fetchView (name : String) (design view options : Value) : StoreM (List Value) := do
  available
  liftM ((← database name).fetchView design view options)

def count (name : String) : StoreM Nat := do liftM (← database name).count

def injectedFailure : Fault := .connection (.str "Injected failure") (.str "memory")

def inject (fault : Fault) : StoreM Unit :=
  modify fun m => { m with pendingFailure := some fault }

def arm (rival : Rival) : StoreM Unit := modify fun m => { m with rival := some rival }

def closed : LogRecord := ⟨.debug, "couchview.store.memory", "InMemoryStoreClient closed", []⟩

def close : StoreM Unit := do
  modify fun m => { m with databases := [] }
  report closed

end Memory

end DocMapper
