import DocMapper.Repository.Session

/-!
# Reading

A query is compiled before the database is opened.  Its rows are projected to
the requested fields, by default those that the query selects, or else all
fields of the entity.
-/

namespace DocMapper.Session

/-- What a query is asked of: a query on an entity, or an entity with a filter
that may be null. -/
inductive Question where
  | query (query : Query)
  | filtered (condition : Value)

def Question.toQuery : Question → Outcome Query
  | .query given => .ok given
  | .filtered condition =>
      if condition.isNull then .ok Query.everything else Query.everything.filter condition

def compiled (entity : Entity) (lookup : Lookup) : LogRecord :=
  ⟨.debug, "couchview.query.compiler", "Compiled view query",
    [("entity", entity.name), ("design", lookup.design), ("view", lookup.view)]⟩

def answered (entity : Entity) (lookup : Lookup) (rows : Nat) : LogRecord :=
  ⟨.debug, "couchview.repo", "Query answered",
    [("entity", entity.name), ("view", lookup.view), ("rows", .int rows)]⟩

/-- The fields that a query returns; null asks for its own selection. -/
def returnedFields (fields : Value) (query : Query) (entity : Entity) : Value :=
  if fields.isNull then .list (query.fields.getD entity.fieldNames) else fields

def all (ref : EntityRef) (question : Question) (fields : Value) : SessionM (List Entries) := do
  let query ← liftM question.toQuery
  let entity ← entity ref
  let lookup ← liftM (compileQuery query entity)
  report (compiled entity lookup)
  let db ← database entity
  let rows ← onStore (Memory.fetchView db lookup.design lookup.view (.map lookup.options))
  let names ← liftM (returnedFields fields query entity).items
  let records ← liftM (projectAll entity.fields names rows)
  report (answered entity lookup records.length)
  return records

def find (entity : Entity) (id : Value) : SessionM (Option Entries) :=
  tryCatch (do return some (← onStore (Memory.fetch (← database entity) id))) fun
    | .fault (.notFound ..) => return none
    | failure => throw failure

def get (ref : EntityRef) (id fields : Value) : SessionM (Option Entries) := do
  let entity ← entity ref
  match ← find entity id with
  | none => return none
  | some document =>
      let fields : Value := if fields.isNull then .list entity.fieldNames else fields
      return some (← liftM do decodeDocument entity.fields (.map document) (← fields.items))

end DocMapper.Session
