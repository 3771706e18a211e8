import DocMapper.Failure
import DocMapper.Value.Access

/-!
# Raising faults by hand

A fault of any kind can be built from positional and named parts.  Each kind
lists its parts in order, with what stands for a part that is not given.
-/

namespace DocMapper

inductive FaultKind where
  | general
  | unsupportedQuery
  | staleEntry
  | dataIntegrity
  | validation
  | unknownField
  | store
  | connection
  | conflict
  | notFound
  deriving DecidableEq, Repr

/-- The parts of a kind; a part without a stand-in has to be given. -/
def FaultKind.parts : FaultKind → List (String × Option Value)
  | .general => [("message", none), ("code", some .null), ("details", some .null)]
  | .unsupportedQuery =>
      [("message", none), ("reason", some (.str "unsupported_operation")), ("clause", some .null)]
  | .staleEntry =>
      [("message", none), ("doc_id", none), ("expected_rev", some .null),
        ("actual_rev", some .null)]
  | .dataIntegrity => [("message", none), ("row", some .null)]
  | .validation => [("message", none), ("field_name", some .null), ("errors", some .null)]
  | .unknownField => [("field_name", none), ("entity_name", none), ("suggestions", some .null)]
  | .store =>
      [("message", none), ("status_code", some .null), ("error", some .null),
        ("reason", some .null), ("code", some (.str "STORE_ERROR"))]
  | .connection => [("message", none), ("address", some .null)]
  | .conflict => [("message", none), ("reason", some .null)]
  | .notFound => [("message", none), ("reason", some .null)]

/-- The value of every part: the positional ones first, then the named ones.  A
part may be given once, and only parts of the kind may be given. -/
def bindParts (parts : List (String × Option Value)) (positional : List Value)
    (named : List (String × Value)) : Outcome (List Value) := do
  let rest := parts.drop positional.length
  if parts.length < positional.length then .error .wrongType
  if !named.all fun n => rest.any fun p => p.1 == n.1 then .error .wrongType
  let others ← rest.mapM fun (name, standIn) =>
    match named.find? fun n => n.1 == name, standIn with
    | some (_, value), _ => .ok value
    | none, some value => .ok value
    | none, none => .error .wrongType
  return positional ++ others

def requireTexts (suggestions : Value) : Outcome Unit := do
  if suggestions.truthy then
    let items ← suggestions.items
    if !items.all fun item => item.typeName == "str" then .error .wrongType

def Fault.raise (kind : FaultKind) (positional : List Value) (named : List (String × Value)) :
    Outcome Fault := do
  match kind, ← bindParts kind.parts positional named with
  | .general, [message, code, details] => return .general message code details
  | .unsupportedQuery, [message, reason, clause] => return .unsupportedQuery message reason clause
  | .staleEntry, [message, docId, expected, actual] =>
      return .staleEntry message docId expected actual
  | .dataIntegrity, [message, row] => return .dataIntegrity message row
  | .validation, [message, fieldName, errors] => return .validation message fieldName errors
  | .unknownField, [fieldName, entityName, suggestions] => do
      requireTexts suggestions
      return .unknownField fieldName entityName suggestions
  | .store, [message, status, error, reason, code] => return .store message status error reason code
  | .connection, [message, address] => return .connection message address
  | .conflict, [message, reason] => return .conflict message reason
  | .notFound, [message, reason] => return .notFound message reason
  | _, _ => .error .wrongType

end DocMapper
