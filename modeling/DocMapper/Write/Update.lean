import DocMapper.Record.Codec
import DocMapper.Record.Validate
import DocMapper.Store.Memory

/-!
# Updating

An update reads the document, checks that it is still at the revision the caller
read, and saves it with the changes.  If another writer got there first, before
the read or between read and save, the entry is stale and nothing is written.
-/

namespace DocMapper.Write

structure UpdateResult where
  docId : Value
  rev : Value
  returned : Entries
  deriving BEq, Repr

inductive Staleness where
  | absent
  | newer (actualRev : Value)
  | overtaken
  deriving BEq, Repr

namespace Staleness

def text : Staleness → String
  | .absent => "does not exist"
  | .newer _ => "is at a newer revision"
  | .overtaken => "changed during update"

def actualRev : Staleness → Value
  | .newer rev => rev
  | _ => .null

def failure (staleness : Staleness) (entity : Entity) (id rev : Value) : Failure :=
  let message := "Attempted to update a stale " ++ entity.name.text ++ ": '" ++ id.text ++ "' " ++
    staleness.text
  .fault (.staleEntry (.str message) id rev staleness.actualRev)

end Staleness

def reservedIn (changes : Entries) : List String :=
  [idField, revField].filter fun name => changes.has (.str name)

def reservedChange (entity : Entity) (names : List String) (first : String) : Failure :=
  let message := "Cannot change reserved field(s) " ++ (Value.strings names).display ++ " of " ++
    entity.name.text
  .fault (.validation (.str message) (.str first) .null)

/-- The named changes, which may not touch the reserved fields and have to fit
the entity. -/
def admissibleChanges (entity : Entity) (changes : Value) : Outcome Entries := do
  let changes ← recordFields changes
  match reservedIn changes with
  | first :: rest => .error (reservedChange entity (first :: rest) first)
  | [] =>
      validate entity (.map changes) true
      return changes

def applyChanges (document : Entries) (changes : Entries) : Entries :=
  changes.foldl (fun document c => document.set (.str c.1.text) (encodeValue c.2)) document

def revisionMoved (id rev actual : Value) : LogRecord :=
  ⟨.warning, "couchview.engine", "Update refused: revision moved on",
    [("doc_id", id), ("expected_rev", rev), ("actual_rev", actual)]⟩

/-- The first step: the document at the caller's revision. -/
def readForUpdate (db : String) (entity : Entity) (id rev : Value) : StoreM Entries := do
  let current ← tryCatch (Memory.fetch db id) fun
    | .fault (.notFound ..) => throw (Staleness.absent.failure entity id rev)
    | failure => throw failure
  let actual := Database.revisionOf current
  if actual.differs rev then
    Memory.report (revisionMoved id rev actual)
    throw ((Staleness.newer actual).failure entity id rev)
  else return current

/-- The second step: the changed document is saved. -/
def saveChanged (db : String) (entity : Entity) (id rev : Value) (document : Entries) :
    StoreM Entries :=
  tryCatch (Memory.save db (.map document)) fun
    | .fault (.conflict ..) => throw (Staleness.overtaken.failure entity id rev)
    | failure => throw failure

/-- The names of the returned fields; the revision is always among them. -/
def returnedNames (returning : Value) : Outcome (List Value) := do
  let names ← returning.items
  return if (Value.str revField).isAmong names then names else names ++ [.str revField]

def update (db : String) (entity : Entity) (id rev changes returning : Value) :
    StoreM UpdateResult := do
  let changes ← liftM (admissibleChanges entity changes)
  let current ← readForUpdate db entity id rev
  let saved ← saveChanged db entity id rev (applyChanges current changes)
  let returned ← liftM do
    decodeDocument entity.fields (.map saved) (← returnedNames returning)
  return ⟨Database.identifierOf saved, Database.revisionOf saved, returned⟩

end DocMapper.Write
