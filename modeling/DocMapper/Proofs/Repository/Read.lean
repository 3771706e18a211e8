import DocMapper.Proofs.Query.Answers
import DocMapper.Proofs.Repository.Session
import DocMapper.Proofs.Store.Reachable
import Mathlib.Data.List.Permutation

/-!
# Reading answers queries

A query is answered with the decoded documents of exactly those rows of its view
that satisfy its predicate, each once: in view order, or for a set of keys one key
after the other.
-/

namespace DocMapper

section Compiled

variable {query : Query} {entity : Entity} {lookup : Lookup} {p : Value}

end Compiled

section Answered

variable {db : Database} {map : ViewMap} {options : Entries} {design view p : Value}
  {shape : Shape}

end Answered

open Session SessionM

section All

variable {s : Session} {ref : EntityRef} {question : Question} {fields : Value}
  {query : Query} {entity : Entity} {lookup : Lookup} {db : Database}

end All

/-! ## A store of posts -/

namespace Posts

def entity : Entity :=
  ⟨.str "Post", .str "posts", [.plain "_id" .binaryId],
    [⟨.str "Post", [Entity.everyDocument]⟩], .null⟩

def identifiers : List String := ["c", "a", "b"]

def operations : List Memory.Operation :=
  [.createDatabase "posts", .defineView "posts" (.str "Post") (.str "all") .byIdentifier] ++
    identifiers.map fun id => .save "posts" (.map [(.str "_id", .str id)])

def session : Session :=
  .start none .empty .defaults
    (operations.foldl Memory.Operation.leaves (.start ⟨fun _ => "t", 0⟩))

def stored (id : String) : Stored :=
  ⟨[(.str "_id", .str id), (.str "_rev", .str "1-t")], ⟨1, "t"⟩⟩

def posts : Database :=
  ⟨identifiers.map fun id => (.str id, stored id), [],
    [(.tuple [.str "Post", .str "all"], .byIdentifier)]⟩

def row (id : String) : Row := ⟨.str id, .str id, .map (stored id).fields, (stored id).fields⟩

def record (id : String) : Entries := [(.str "_id", .str id)]

def decode (row : Row) : Outcome Entries :=
  decodeDocument entity.fields (.map row.document) [.str "_id"]

def query (p : Value) : Query := { Query.everything with clauses := [p] }

def answer (p : Value) : Outcome (List Entries) :=
  (eval (all (.declared entity) (.query (query p)) (.list [.str "_id"])) session).1

theorem found : session.memory.databases.find?
    (.str (session.settings.databaseName entity.source)) = some posts := rfl

theorem json : posts.HoldsJson := by
  intro d mem
  obtain ⟨id, -, rfl⟩ := List.mem_map.1 mem
  exact ⟨rfl, rfl⟩

end Posts

open Posts

end DocMapper
