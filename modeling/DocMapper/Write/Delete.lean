import DocMapper.Schema.Entity
import DocMapper.Store.Memory

/-!
# Deleting

A document that the store does not know counts as deleted.  A revision that the
store rejects is a result and not a failure.
-/

namespace DocMapper.Write

inductive DeleteResult where
  | deleted (rev : String)
  | alreadyDeleted
  | refused (reason : Value)
  deriving BEq, Repr

def deletedBefore (entity : Entity) (id : Value) : LogRecord :=
  ⟨.debug, "couchview.engine", "Delete of missing document treated as done",
    [("entity", entity.name), ("doc_id", id)]⟩

def deleteRefused (entity : Entity) (id rev reason : Value) : LogRecord :=
  ⟨.warning, "couchview.engine", "Delete rejected by store",
    [("entity", entity.name), ("doc_id", id), ("rev", rev), ("reason", reason)]⟩

def delete (db : String) (entity : Entity) (id rev : Value) : StoreM DeleteResult :=
  tryCatch (do return .deleted (← Memory.delete db id rev).text) fun
    | .fault (.notFound ..) => do
        Memory.report (deletedBefore entity id)
        return .alreadyDeleted
    | .fault (.conflict message reason) => do
        let reason := (Fault.conflict message reason).reason
        Memory.report (deleteRefused entity id rev reason)
        return .refused reason
    | failure => throw failure

end DocMapper.Write
