import DocMapper.Query.Refusal
import DocMapper.Value.Access
import DocMapper.Text.LowerCase

/-!
# Filters

Two ways to write a predicate: operators on a view reference, and filter
expressions made of tuples and maps, such as a request body holds.  Strict
comparisons can be written in both; compiling refuses them.
-/

namespace DocMapper

namespace Value

def isInItems (view values : Value) : Outcome Value := do
  return .isIn view (← values.items)

def operator? (view : Value) (op : String) (value : Value) : Option Value :=
  match op with
  | "==" => some (.eq view value)
  | "!=" => some (.compare view (.str "!=") value)
  | ">=" => some (.atLeast view value)
  | "<=" => some (.atMost view value)
  | ">" => some (.compare view (.str ">") value)
  | "<" => some (.compare view (.str "<") value)
  | _ => none

def conjoin (a b : Value) : Outcome Value :=
  if a.isPredicate then .ok (.all [a, b]) else .error .wrongType

/-- Alternatives cannot be answered, so joining a predicate by "or" is refused
at once. -/
def disjoin (a b : Value) : Outcome Value :=
  if a.isPredicate then refuse (.alternatives (.tuple [a, .str "or", b]))
  else .error .wrongType

end Value

def strictOperators : List String := [">", "<", "!="]

def operators : List String := ["==", "=", "in", ">=", "<="] ++ strictOperators

def comparison (view : Value) (op : String) (value : Value) : Outcome Value :=
  if op = "==" ∨ op = "=" then .ok (.eq view value)
  else if op = "in" then
    match value with
    | .str _ | .bytes _ => refuse (.keysExpected view (.str op) value)
    | value =>
        match value.items? with
        | some items => .ok (.isIn view items)
        | none => refuse (.keysExpected view (.str op) value)
  else if op = ">=" then .ok (.atLeast view value)
  else if op = "<=" then .ok (.atMost view value)
  else if op ∈ strictOperators then .ok (.compare view (.str op) value)
  else refuse (.unknownOperator view (.str op) value)

def operatorName (op : Value) : String := Text.lower op.text

/-! ## Expressions -/

/-- A map is read as conditions on one view only if every key is an operator. -/
def isConditions (entries : Entries) : Bool :=
  entries.all fun e => operators.contains (operatorName e.1)

def entryPredicates (clause view condition : Value) : Outcome (List Value) :=
  match condition.entries? with
  | some conditions =>
      if isConditions conditions then
        if conditions.isEmpty then refuse (.emptyCondition view clause)
        else conditions.mapM fun c => comparison view (operatorName c.1) c.2
      else .ok [.eq view condition]
  | none => .ok [.eq view condition]

/-- A filter map: every entry holds; a single predicate stands alone. -/
def mapPredicate (clause : Value) (entries : Entries) : Outcome Value := do
  let parts ← entries.mapM fun e => entryPredicates clause e.1 e.2
  match parts.flatten with
  | [] => refuse (.uninterpretable clause)
  | [part] => return part
  | parts => return .all parts

def tripleView? : Value → Option Value
  | .str name => some (.str name)
  | .viewRef name => some name
  | _ => none

def headWord : Value → String
  | .str s => Text.lower s
  | _ => ""

mutual

def parseFilter : Value → Outcome Value
  | .tuple (head :: operands) =>
      let clause : Value := .tuple (head :: operands)
      if headWord head = "and" then
        if operands.isEmpty then refuse (.loneAnd clause)
        else do return .all (← parseFilters operands)
      else if headWord head = "or" then refuse (.alternatives clause)
      else
        match tripleView? head, operands with
        | some view, [op, value] => comparison view (operatorName op) value
        | _, _ => refuse (.uninterpretable clause)
  | .map entries => mapPredicate (.map entries) entries
  | .readOnly entries => mapPredicate (.readOnly entries) entries
  | expr => if expr.isPredicate then .ok expr else refuse (.uninterpretable expr)
termination_by structural x => x

def parseFilters : List Value → Outcome (List Value)
  | [] => .ok []
  | expr :: rest => do return (← parseFilter expr) :: (← parseFilters rest)
termination_by structural x => x

end

end DocMapper
