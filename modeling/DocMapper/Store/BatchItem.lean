import DocMapper.Value.Access

/-!
# Batch items

What a store answers for one document of a batch: the new revision, or the error
for which the document was not saved.
-/

namespace DocMapper

structure BatchItem where
  id : Value
  rev : Value
  error : Value
  reason : Value
  deriving BEq, Repr

namespace BatchItem

def ok (item : BatchItem) : Bool := item.error.isNull

def saved (id rev : Value) : BatchItem := ⟨id, rev, .null, .null⟩

def rejected (id reason : Value) : BatchItem := ⟨id, .null, .str "conflict", reason⟩

def ofValue (data : Value) : Outcome BatchItem := do
  return ⟨← data.get "id", ← data.get "rev", ← data.get "error", ← data.get "reason"⟩

end BatchItem

end DocMapper
