import DocMapper.Value.Access

/-!
# JSON trees

What a JSON text denotes.  Objects keep their members as written, in order and
with repetitions.  A value has a tree unless a record, a reference, a predicate,
a read-only map or bytes stand in it; tuples become arrays, and keys that are
numbers, truth values or null become their JSON texts.
-/

namespace DocMapper

inductive Json where
  | null
  | bool (b : Bool)
  | int (i : Int)
  | float (x : Double)
  | str (s : String)
  | array (items : List Json)
  | object (members : List (String × Json))
  deriving BEq, Repr, Inhabited

namespace Json

def floatText : Double → String
  | .infinite true => "-Infinity"
  | .infinite false => "Infinity"
  | x => x.text

mutual

def toValue : Json → Value
  | .null => .null
  | .bool b => .bool b
  | .int i => .int i
  | .float x => .float x
  | .str s => .str s
  | .array items => .list (toValues items)
  | .object members => .map (Keyed.ofPairs (toEntries members))
termination_by structural x => x

def toValues : List Json → List Value
  | [] => []
  | j :: js => toValue j :: toValues js
termination_by structural x => x

def toEntries : List (String × Json) → List (Value × Value)
  | [] => []
  | (k, j) :: rest => (.str k, toValue j) :: toEntries rest
termination_by structural x => x

end

end Json

namespace Value

def memberName? : Value → Option String
  | .str s => some s
  | .null => some "null"
  | .bool b => some (if b then "true" else "false")
  | .int i => some (toString i)
  | .float x => some (Json.floatText x)
  | _ => none

/-- Members in the order of their keys as values. -/
def sortMembers? (entries : List (Value × Json)) : Option (List (Value × Json)) :=
  sorted? (fun a b => less? a.1 b.1) entries

def nameMembers? (entries : List (Value × Json)) : Option (List (String × Json)) :=
  entries.mapM fun e => do return (← e.1.memberName?, e.2)

mutual

def toJson? (sortKeys : Bool) : Value → Option Json
  | .null => some .null
  | .bool b => some (.bool b)
  | .int i => some (.int i)
  | .float x => some (.float x)
  | .str s => some (.str s)
  | .list items | .tuple items => (toJsons? sortKeys items).map .array
  | .map entries => do
      let members ← toMembers? sortKeys entries
      let members ← if sortKeys then sortMembers? members else some members
      return .object (← nameMembers? members)
  | _ => none
termination_by structural x => x

def toJsons? (sortKeys : Bool) : List Value → Option (List Json)
  | [] => some []
  | v :: vs => do return (← toJson? sortKeys v) :: (← toJsons? sortKeys vs)
termination_by structural x => x

def toMembers? (sortKeys : Bool) : List (Value × Value) → Option (List (Value × Json))
  | [] => some []
  | (k, v) :: rest => do return (k, ← toJson? sortKeys v) :: (← toMembers? sortKeys rest)
termination_by structural x => x

end

end Value

end DocMapper
