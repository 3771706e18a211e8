import DocMapper.Query.Refusal
import DocMapper.Value.Access

/-!
# View options

The options of two conjoined predicates on one view are merged name by name: two
sets of keys intersect, in the order of the first, and any other option given
twice must have one value.  An exact option stands alone.
-/

namespace DocMapper

def exactOptions : List String := ["key", "keys"]
def rangeOptions : List String := ["startkey", "endkey"]

def intersectKeys (left right : Value) : Outcome Value := do
  let kept ← (← left.items).filterM fun key => right.holds key
  return .tuple kept

def mergeOption (clause : Value) (merged : Entries) (name value : Value) : Outcome Entries :=
  match merged.find? name with
  | none => .ok (merged.set name value)
  | some present =>
      if name.same (.str "keys") then do
        return merged.set name (← intersectKeys present value)
      else if present.differs value then refuse (.conflictingValues name present value clause)
      else .ok merged

/-- The options that fix a place in the view, in a fixed order. -/
def anchors (options : Entries) : List String :=
  (exactOptions ++ rangeOptions).filter fun name => options.has (.str name)

def mergeOptions (clause : Value) (left right : Entries) : Outcome Entries := do
  let merged ← right.foldlM (fun merged e => mergeOption clause merged e.1 e.2) left
  let found := anchors merged
  if found.any exactOptions.contains && found.length > 1 then
    refuse (.conflictingAnchors found clause)
  else return merged

end DocMapper
