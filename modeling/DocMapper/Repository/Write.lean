import DocMapper.Repository.Session
import DocMapper.Schema.DesignDocument
import DocMapper.Write.Delete
import DocMapper.Write.Insert
import DocMapper.Write.Update

/-!
# Writing

Writes open the database of the entity and are then carried out on the store.
-/

namespace DocMapper.Session

def insert (ref : EntityRef) (record returning : Value) : SessionM Write.InsertResult := do
  let entity ← entity ref
  let db ← database entity
  onStore (Write.insert db entity record returning)

def insertAll (ref : EntityRef) (records returning : Value) : SessionM Write.BatchResult := do
  let entity ← entity ref
  let db ← database entity
  onStore (Write.insertAll db entity records returning)

def update (ref : EntityRef) (id rev changes returning : Value) :
    SessionM Write.UpdateResult := do
  let entity ← entity ref
  let db ← database entity
  onStore (Write.update db entity id rev changes returning)

def delete (ref : EntityRef) (id rev : Value) : SessionM Write.DeleteResult := do
  let entity ← entity ref
  let db ← database entity
  onStore (Write.delete db entity id rev)

def designSaved (entity : Entity) (design rev : Value) : LogRecord :=
  ⟨.info, "couchview.repo", "Design document saved",
    [("entity", entity.name), ("design", design), ("rev", rev)]⟩

def sourcesOf (maps design : Value) : Outcome Value :=
  if maps.truthy then maps.getKey design else .ok .null

/-- A document at the revision of the stored one, so that it replaces it. -/
def atStoredRevision (db : String) (document : Document) : StoreM Document :=
  tryCatch
    (do
      let stored ← Memory.fetch db (Database.identifierOf document)
      return document.set (.str revField) (Database.revisionOf stored))
    fun
      | .fault (.notFound ..) => return document
      | failure => throw failure

def saveDesign (db : String) (entity : Entity) (maps design : Value) : StoreM Value := do
  let sources ← liftM (sourcesOf maps design)
  let document ← liftM (designDocument entity sources design)
  let saved ← Memory.save db (.map (← atStoredRevision db document))
  let rev := Database.revisionOf saved
  Memory.report (designSaved entity design rev)
  return rev

/-- Saves the design documents of an entity one after the other; answers their
revisions by design. -/
def syncDesigns (ref : EntityRef) (maps : Value) : SessionM Entries := do
  let entity ← entity ref
  let db ← database entity
  let revisions ← onStore (entity.designNames.mapM fun design => do
    return (design, ← saveDesign db entity maps design))
  return Keyed.ofPairs revisions

end DocMapper.Session
