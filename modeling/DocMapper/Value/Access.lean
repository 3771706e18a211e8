import DocMapper.Failure
import DocMapper.Value.Order

/-!
# Looking into values

Reading a part of a value fails in a way that tells whether the value has no
such operation, lacks the part, or was asked with a key that cannot be one.
-/

namespace DocMapper.Value

def requireHashable (key : Value) : Outcome Unit :=
  if key.hashable then .ok () else .error .wrongType

def items (v : Value) : Outcome (List Value) :=
  .ofOption .wrongType v.items?

def mapping (v : Value) : Outcome Entries :=
  .ofOption .noSuchPart v.entries?

def get (v : Value) (key : String) : Outcome Value := do
  let entries ← v.mapping
  return .ofOption (entries.find? (.str key))

/-- As `get`, with another value in place of null. -/
def getOr (v : Value) (key : String) (absent : Value) : Outcome Value := do
  let entries ← v.mapping
  return (entries.find? (.str key)).getD absent

def getKey (v key : Value) : Outcome Value := do
  let entries ← v.mapping
  key.requireHashable
  return .ofOption (entries.find? key)

def part (v : Value) (key : String) : Outcome Value :=
  match v.entries? with
  | some entries => .ofOption .absentKey (entries.find? (.str key))
  | none => .error .wrongType

def isInfix {α : Type} [BEq α] (needle haystack : List α) : Bool :=
  match haystack with
  | [] => needle.isEmpty
  | c :: rest => needle.isPrefixOf (c :: rest) || isInfix needle rest

/-- Whether a value holds another: as a key, an item, or a part of a text. -/
def holds (v part : Value) : Outcome Bool :=
  match v with
  | .map entries | .readOnly entries => do
      part.requireHashable
      return Keyed.has entries part
  | .list items | .tuple items => .ok (part.isAmong items)
  | .str s =>
      match part with
      | .str t => .ok (isInfix t.toList s.toList)
      | _ => .error .wrongType
  | .bytes data =>
      match part with
      | .bytes inner => .ok (isInfix inner data)
      | .int i =>
          if 0 ≤ i ∧ i < 256 then .ok (data.contains (UInt8.ofNat i.toNat))
          else .error (.misuse .wrongValue)
      | .bool b => .ok (data.contains (if b then 1 else 0))
      | _ => .error .wrongType
  | _ => .error .wrongType

def pair (v : Value) : Outcome (Value × Value) := do
  let [key, value] ← v.items | .error (.misuse .wrongValue)
  key.requireHashable
  return (key, value)

def asEntries (v : Value) : Outcome Entries :=
  match v.entries? with
  | some entries => .ok entries
  | none => do return Keyed.ofPairs (← (← v.items).mapM pair)

/-- A copy that shares nothing with the value.  Values never change, so only the
refusal to copy a read-only map is seen. -/
def copied (v : Value) : Outcome Value :=
  if v.copyable then .ok v else .error .wrongType

def sorted (values : List Value) : Outcome (List Value) :=
  .ofOption .wrongType (sorted? less? values)

end DocMapper.Value
