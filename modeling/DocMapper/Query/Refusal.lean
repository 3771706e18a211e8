import DocMapper.Failure

/-!
# Refused queries

A query is refused when one view lookup cannot answer it, or when its filter
cannot be understood.  Each cause names the clause it is about, if there is one.
-/

namespace DocMapper

inductive Refusal where
  /-- Alternatives, by the operator or in an expression. -/
  | alternatives (clause : Value)
  | loneAnd (clause : Value)
  | keysExpected (view op value : Value)
  | unknownOperator (view op value : Value)
  | emptyCondition (view clause : Value)
  | uninterpretable (clause : Value)
  | joins (clause : Value)
  | preloads (clause : Value)
  | havings (clause : Value)
  | distinct (clause : Value)
  | severalClauses (count : Nat) (clause : Value)
  | undeclaredView (view design entity clause : Value)
  | unsupportedComparison (view op clause : Value)
  | notAPredicate (clause : Value)
  | emptyConjunction (clause : Value)
  | severalViews (first second clause : Value)
  | conflictingValues (option first second clause : Value)
  | conflictingAnchors (options : List String) (clause : Value)
  deriving BEq, Repr

namespace Refusal

def message : Refusal → String
  | .alternatives _ => "OR is not supported: a view lookup can only be narrowed"
  | .loneAnd _ => "'and' needs at least one operand"
  | .keysExpected view _ _ => "'in' expects a list of keys for view '" ++ view.text ++ "'"
  | .unknownOperator _ op _ => "Unknown operator '" ++ op.text ++ "'"
  | .emptyCondition view _ => "Empty condition for view '" ++ view.text ++ "'"
  | .uninterpretable clause => "Cannot interpret filter expression: " ++ clause.display
  | .joins _ => "Joins are not supported"
  | .preloads _ => "Preloads are not supported"
  | .havings _ => "Havings are not supported"
  | .distinct _ => "Distinct is not supported"
  | .severalClauses count _ =>
      "Only one where clause is supported, got " ++ toString count ++
        "; combine conditions with and"
  | .undeclaredView view design entity _ =>
      "View '" ++ view.text ++ "' is not declared in design '" ++ design.text ++ "' of " ++
        entity.text
  | .unsupportedComparison view op _ =>
      "Operator '" ++ op.text ++ "' is not supported on view '" ++ view.text ++
        "'; use ==, in, >= or <="
  | .notAPredicate clause => "Unsupported predicate: " ++ clause.display
  | .emptyConjunction _ => "Empty conjunction"
  | .severalViews first second _ =>
      "Cannot combine views '" ++ first.text ++ "' and '" ++ second.text ++ "' in one lookup"
  | .conflictingValues option first second _ =>
      "Conflicting values for " ++ option.text ++ ": " ++ first.display ++ " and " ++
        second.display
  | .conflictingAnchors options _ =>
      "Cannot combine " ++ joinTexts " and " options ++ " in one lookup"

def reason : Refusal → String
  | .severalClauses .. => "multiple_where_clauses"
  | .undeclaredView .. => "unknown_view"
  | .severalViews .. => "cross_view_conjunction"
  | .conflictingValues .. | .conflictingAnchors .. => "conflicting_bound"
  | _ => "unsupported_operation"

def clause : Refusal → Value
  | .keysExpected view op value | .unknownOperator view op value => .tuple [view, op, value]
  | .alternatives clause | .loneAnd clause | .emptyCondition _ clause
  | .uninterpretable clause | .joins clause | .preloads clause | .havings clause
  | .distinct clause | .severalClauses _ clause | .undeclaredView _ _ _ clause
  | .unsupportedComparison _ _ clause | .notAPredicate clause | .emptyConjunction clause
  | .severalViews _ _ clause | .conflictingValues _ _ _ clause
  | .conflictingAnchors _ clause => clause

def fault (refusal : Refusal) : Fault :=
  .unsupportedQuery (.str refusal.message) (.str refusal.reason) refusal.clause

end Refusal

def refuse {α : Type} (refusal : Refusal) : Outcome α := .error (.fault refusal.fault)

end DocMapper
