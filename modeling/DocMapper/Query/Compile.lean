import DocMapper.Query.Options
import DocMapper.Query.Filter
import DocMapper.Schema.Entity

/-!
# Compiling queries

A view lookup admits one exact key, a set of keys, or a range of keys.  A query
compiles if its predicate collapses into one of these on one view; everything
else is refused before any request is made.
-/

namespace DocMapper

/-- A query on one entity.  The last four parts are kept only to be refused. -/
structure Query where
  clauses : List Value
  /-- The selected fields; all fields of the entity without a selection. -/
  fields : Option (List Value)
  joins : List Value
  preloads : List Value
  havings : List Value
  distinctOn : Value
  deriving BEq, Repr

namespace Query

def everything : Query := ⟨[], none, [], [], [], .null⟩

def filter (query : Query) (expr : Value) : Outcome Query := do
  return { query with clauses := query.clauses ++ [← parseFilter expr] }

def ofPredicate (predicate : Value) : Outcome Query :=
  if predicate.isNull then .ok everything
  else if predicate.isPredicate then .ok { everything with clauses := [predicate] }
  else .error .noSuchPart

end Query

structure Lookup where
  design : Value
  view : Value
  options : Entries
  deriving BEq, Repr

/-- A lookup holds its set of keys, if any, as a tuple. -/
def Lookup.make (design view : Value) (options : Entries) : Outcome Lookup :=
  match options.find? (.str "keys") with
  | some keys => do
      return ⟨design, view, options.set (.str "keys") (.tuple (← keys.items))⟩
  | none => .ok ⟨design, view, options⟩

def Lookup.same (a b : Lookup) : Bool :=
  a.design.same b.design && a.view.same b.view && (Value.map a.options).same (.map b.options)

mutual

def compilePredicate : Value → Outcome (Value × Entries)
  | .eq view value => .ok (view, [(.str "key", value)])
  | .isIn view values => .ok (view, [(.str "keys", .tuple values)])
  | .atLeast view value => .ok (view, [(.str "startkey", value)])
  | .atMost view value => .ok (view, [(.str "endkey", value)])
  | .compare view op value => refuse (.unsupportedComparison view op (.compare view op value))
  | .all [] => refuse (.emptyConjunction (.all []))
  | .all (first :: rest) => do
      let (view, options) ← compilePredicate first
      let options ← compileRest (.all (first :: rest)) view options rest
      return (view, options)
  | other => refuse (.notAPredicate other)
termination_by structural x => x

/-- Merges the options of further predicates on the same view. -/
def compileRest (clause view : Value) : Entries → List Value → Outcome Entries
  | options, [] => .ok options
  | options, child :: rest => do
      let (childView, childOptions) ← compilePredicate child
      if childView.differs view then refuse (.severalViews view childView clause)
      let options ← mergeOptions clause options childOptions
      compileRest clause view options rest
termination_by structural _ x => x

end

def rejectUnsupported (query : Query) : Outcome Unit := do
  if !query.joins.isEmpty then refuse (.joins (.tuple query.joins))
  if !query.preloads.isEmpty then refuse (.preloads (.tuple query.preloads))
  if !query.havings.isEmpty then refuse (.havings (.tuple query.havings))
  if !query.distinctOn.isNull then refuse (.distinct query.distinctOn)

/-- The lookup that answers a query; it always asks for the documents too. -/
def compileQuery (query : Query) (entity : Entity) : Outcome Lookup := do
  rejectUnsupported query
  let design := entity.defaultDesign
  match query.clauses with
  | [] => Lookup.make design (.str allView) [(.str "include_docs", .bool true)]
  | [clause] =>
      let (view, options) ← compilePredicate clause
      if (entity.viewKeyTypes? design view).isNone then
        refuse (.undeclaredView view design entity.name clause)
      Lookup.make design view (options.set (.str "include_docs") (.bool true))
  | clauses => refuse (.severalClauses clauses.length (.tuple clauses))

end DocMapper
