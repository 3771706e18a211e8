import DocMapper.Value.Keyed
import DocMapper.Value.Display

/-!
# Failures

A `Fault` is a failure of the mapper's own domain: it has a code, a message and
details for programs to read.  A `Failure` is whatever can end an operation: a
fault, a malformed declaration, a rejected setting, or the misuse of a value.
-/

namespace DocMapper

/-- The parts of a fault are values, since a caller may raise a fault by hand
with any of them. -/
inductive Fault where
  | general (message code details : Value)
  | unsupportedQuery (message reason clause : Value)
  | staleEntry (message docId expectedRev actualRev : Value)
  | dataIntegrity (message row : Value)
  | validation (message fieldName errors : Value)
  | unknownField (fieldName entityName suggestions : Value)
  | store (message statusCode error reason code : Value)
  | connection (message address : Value)
  | conflict (message reason : Value)
  | notFound (message reason : Value)
  deriving BEq, Repr

namespace Fault

def defaultCode : Value := .str "COUCHVIEW_ERROR"

def unknownFieldMessage (fieldName entityName suggestions : Value) : String :=
  let known := "Unknown field '" ++ fieldName.text ++ "' in entity '" ++ entityName.text ++ "'"
  if suggestions.truthy then
    let names := (suggestions.items?.getD []).map Value.text
    known ++ ". Did you mean: " ++ joinTexts ", " names ++ "?"
  else known

def message : Fault → Value
  | .general message .. => message
  | .unsupportedQuery message .. => message
  | .staleEntry message .. => message
  | .dataIntegrity message _ => message
  | .validation message .. => message
  | .unknownField fieldName entityName suggestions =>
      .str (unknownFieldMessage fieldName entityName suggestions)
  | .store message .. => message
  | .connection message _ => message
  | .conflict message _ => message
  | .notFound message _ => message

def code : Fault → Value
  | .general _ code _ => code.orElse defaultCode
  | .unsupportedQuery .. => .str "UNSUPPORTED_QUERY"
  | .staleEntry .. => .str "STALE_ENTRY"
  | .dataIntegrity .. => .str "DATA_INTEGRITY"
  | .validation .. => .str "VALIDATION_ERROR"
  | .unknownField .. => .str "UNKNOWN_FIELD"
  | .store _ _ _ _ code => code.orElse defaultCode
  | .connection .. => .str "STORE_CONNECTION_ERROR"
  | .conflict .. => .str "STORE_CONFLICT"
  | .notFound .. => .str "STORE_NOT_FOUND"

def isStoreFault : Fault → Bool
  | .store .. | .connection .. | .conflict .. | .notFound .. => true
  | _ => false

def reason : Fault → Value
  | .unsupportedQuery _ reason _ => reason
  | .store _ _ _ reason _ => reason
  | .conflict _ reason => reason.orElse (.str "Document update conflict.")
  | .notFound _ reason => reason.orElse (.str "missing")
  | _ => .null

def attributes (fault : Fault) : List (String × Value) :=
  match fault with
  | .general .. => []
  | .unsupportedQuery _ reason clause => [("reason", reason), ("clause", clause)]
  | .staleEntry _ docId expectedRev actualRev =>
      [("doc_id", docId), ("expected_rev", expectedRev), ("actual_rev", actualRev)]
  | .dataIntegrity _ row => [("row", row)]
  | .validation _ fieldName errors =>
      [("field_name", fieldName), ("errors", errors.orElse (.list []))]
  | .unknownField fieldName entityName suggestions =>
      [("field_name", fieldName), ("entity_name", entityName),
        ("suggestions", suggestions.orElse (.list []))]
  | .store _ statusCode error reason _ =>
      [("status_code", statusCode), ("error", error), ("reason", reason)]
  | .connection _ address =>
      [("status_code", .null), ("error", .str "connection"), ("reason", .null),
        ("address", address)]
  | .conflict .. =>
      [("status_code", .int 409), ("error", .str "conflict"), ("reason", fault.reason)]
  | .notFound .. =>
      [("status_code", .int 404), ("error", .str "not_found"), ("reason", fault.reason)]

/-- The details are the attributes, except that a clause is shown by its text
and that a validation fault calls its field "field". -/
def details (fault : Fault) : Value :=
  match fault with
  | .general _ _ details => details.orElse (.map [])
  | .unsupportedQuery _ reason clause =>
      .ofFields [("reason", reason),
        ("clause", if clause.isNull then .null else .str clause.display)]
  | .validation _ fieldName errors =>
      .ofFields [("field", fieldName), ("errors", errors.orElse (.list []))]
  | fault => .ofFields fault.attributes

end Fault

/-! ## Failures -/

/-- Ways to use a value against its form; they carry no text of their own. -/
inductive Misuse where
  /-- An operation that values of this form do not have. -/
  | wrongType
  /-- A part that values of this form do not have. -/
  | noSuchPart
  | absentKey
  /-- A value of the right form that cannot be used. -/
  | wrongValue
  /-- A text that does not have the format it should have. -/
  | malformedText
  deriving DecidableEq, Repr

inductive SettingTrouble where
  | notText
  | notWhole
  | unreadableWhole
  | fractionLost
  | notFinite
  | notNumber
  | unreadableNumber
  | tooSmall
  | unknownName
  | notAmong
  | invalid (message : String)
  deriving DecidableEq, Repr

structure SettingProblem where
  name : String
  trouble : SettingTrouble
  deriving DecidableEq, Repr

inductive Failure where
  | fault (fault : Fault)
  | badValue (message : String)
  | badSchema (message : String)
  | badType (message : String)
  | unknownName (message : String)
  | alreadyRegistered (message : String)
  | registryFrozen (message : String)
  | misuse (misuse : Misuse)
  | badSettings (problems : List SettingProblem)
  deriving BEq, Repr

instance : Inhabited Failure := ⟨.misuse .wrongType⟩

namespace Failure

def wrongType : Failure := .misuse .wrongType
def noSuchPart : Failure := .misuse .noSuchPart
def absentKey : Failure := .misuse .absentKey

end Failure

abbrev Outcome := Except Failure

def Outcome.ofOption {α : Type} (failure : Failure) : Option α → Outcome α
  | some a => .ok a
  | none => .error failure

end DocMapper
