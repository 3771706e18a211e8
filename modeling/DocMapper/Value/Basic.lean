import DocMapper.Number.Double

/-!
# Values

Everything that can stand in a record, a document, a view key or a filter
expression.  Maps keep the order in which their keys were first given.  Records
are instances of declared record types; they have named fields.  The last six
forms are predicates over a view; a view is usually given by its name, but any
value can stand in its place.
-/

namespace DocMapper

inductive Value where
  | null
  | bool (b : Bool)
  | int (i : Int)
  | float (x : Double)
  | str (s : String)
  | bytes (data : List UInt8)
  | list (items : List Value)
  | tuple (items : List Value)
  | map (entries : List (Value × Value))
  /-- A map that can be read and not changed or copied. -/
  | readOnly (entries : List (Value × Value))
  | record (type : String) (fields : List (String × Value))
  | recordType (name : String)
  /-- A reference to a view, from which predicates are built. -/
  | viewRef (name : Value)
  | eq (view value : Value)
  | isIn (view : Value) (values : List Value)
  | atLeast (view value : Value)
  | atMost (view value : Value)
  /-- A comparison that no view lookup can express. -/
  | compare (view op value : Value)
  | all (parts : List Value)
  deriving BEq, Repr, Inhabited

abbrev Keyed (α : Type) := List (Value × α)

abbrev Entries := Keyed Value

namespace Value

def typeName : Value → String
  | .null => "NoneType"
  | .bool _ => "bool"
  | .int _ => "int"
  | .float _ => "float"
  | .str _ => "str"
  | .bytes _ => "bytes"
  | .list _ => "list"
  | .tuple _ => "tuple"
  | .map _ => "dict"
  | .readOnly _ => "mappingproxy"
  | .record type _ => type
  | .recordType _ => "type"
  | .viewRef _ => "ViewRef"
  | .eq .. => "Eq"
  | .isIn .. => "In"
  | .atLeast .. => "Gte"
  | .atMost .. => "Lte"
  | .compare .. => "Compare"
  | .all _ => "And"

def isNull : Value → Bool
  | .null => true
  | _ => false

def isViewRef : Value → Bool
  | .viewRef _ => true
  | _ => false

def isPredicate : Value → Bool
  | .eq .. | .isIn .. | .atLeast .. | .atMost .. | .compare .. | .all _ => true
  | _ => false

def entries? : Value → Option Entries
  | .map entries | .readOnly entries => some entries
  | _ => none

def fields? : Value → Option (List (String × Value))
  | .record _ fields => some fields
  | .eq view value => some [("view", view), ("value", value)]
  | .isIn view values => some [("view", view), ("values", .tuple values)]
  | .atLeast view value => some [("view", view), ("value", value)]
  | .atMost view value => some [("view", view), ("value", value)]
  | .compare view op value => some [("view", view), ("op", op), ("value", value)]
  | .all parts => some [("predicates", .tuple parts)]
  | _ => none

def items? : Value → Option (List Value)
  | .list items | .tuple items => some items
  | .map entries | .readOnly entries => some (entries.map Prod.fst)
  | .str s => some (s.toList.map fun c => .str c.toString)
  | .bytes data => some (data.map fun b => .int b.toNat)
  | _ => none

/-- A value counts as true unless it is null, false, zero or empty. -/
def truthy : Value → Bool
  | .null => false
  | .bool b => b
  | .int i => i != 0
  | .float x => !x.isZero
  | .str s => !s.isEmpty
  | .bytes data => !data.isEmpty
  | .list items | .tuple items => !items.isEmpty
  | .map entries | .readOnly entries => !entries.isEmpty
  | _ => true

def orElse (a b : Value) : Value := if a.truthy then a else b

def ofOption : Option Value → Value
  | some v => v
  | none => .null

def strings (names : List String) : Value := .list (names.map .str)

mutual

/-- A value can be copied unless a read-only map stands somewhere in it. -/
def copyable : Value → Bool
  | .readOnly _ => false
  | .list items | .tuple items | .all items => copyableAll items
  | .map entries => copyableEntries entries
  | .record _ fields => copyableFields fields
  | .viewRef name => copyable name
  | .eq view value | .atLeast view value | .atMost view value =>
      copyable view && copyable value
  | .isIn view values => copyable view && copyableAll values
  | .compare view op value => copyable view && copyable op && copyable value
  | _ => true
termination_by structural x => x

def copyableAll : List Value → Bool
  | [] => true
  | v :: vs => copyable v && copyableAll vs
termination_by structural x => x

def copyableEntries : List (Value × Value) → Bool
  | [] => true
  | (k, v) :: rest => copyable k && copyable v && copyableEntries rest
termination_by structural x => x

def copyableFields : List (String × Value) → Bool
  | [] => true
  | (_, v) :: rest => copyable v && copyableFields rest
termination_by structural x => x

end

end Value

end DocMapper
