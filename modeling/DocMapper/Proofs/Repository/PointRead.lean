import DocMapper.Proofs.Repository.Mutations
import DocMapper.Proofs.Write.Steps
import Mathlib.Data.List.Nodup

/-!
# Reading one document

A document can be read under its identifier, or be queried for by the view of all
documents.  The first looks it up in a table; the second selects among the rows of all
documents by the identifiers that the documents hold.  Both answer the same, since every
write files a document under the identifier that it holds.
-/

namespace DocMapper

namespace Entity

def IsMade (entity : Entity) : Prop :=
  ∃ name source fields designs description,
    Entity.make name source fields designs description = .ok entity

theorem withDefaultDesign_declares {name : Value} (same : name.same name = true)
    (designs : List Design) :
    ∃ design, (withDefaultDesign name designs).find? (fun d => d.name.same name) = some design ∧
      (design.findView? (.str allView)).isSome = true := by
  have everyDocument : everyDocument.name.same (.str allView) = true := Value.same_refl rfl
  have declared : ∀ views, (Option.isSome
      (Design.findView? ⟨name, Entity.everyDocument :: views⟩ (.str allView))) = true :=
    fun views => List.find?_isSome.2 ⟨_, List.mem_cons_self, everyDocument⟩
  induction designs with
  | nil => exact ⟨_, List.find?_cons_of_pos same, declared []⟩
  | cons design rest ih =>
      rw [withDefaultDesign]
      split
      next called =>
        split
        next found => exact ⟨design, List.find?_cons_of_pos called, Option.isSome_of_eq_some found⟩
        next => exact ⟨_, List.find?_cons_of_pos called, declared design.views⟩
      next other =>
        obtain ⟨design', found, view⟩ := ih
        exact ⟨design', found ▸ List.find?_cons_of_neg other, view⟩

theorem IsMade.viewKeyTypes? {entity : Entity} (made : entity.IsMade)
    (named : entity.name.isText = true) :
    (entity.viewKeyTypes? entity.name (.str allView)).isSome = true := by
  obtain ⟨name, source, fields, designs, description, made⟩ := made
  obtain ⟨u, -, made⟩ := Outcome.bind_eq_ok.1 made
  obtain ⟨u, -, made⟩ := Outcome.bind_eq_ok.1 made
  obtain ⟨u, -, made⟩ := Outcome.bind_eq_ok.1 made
  obtain ⟨u, -, made⟩ := Outcome.bind_eq_ok.1 made
  cases made
  obtain ⟨s, rfl⟩ : ∃ s, name = .str s := Value.isText_iff.1 named
  have same : (Value.str s).same (.str s) = true := Value.same_refl rfl
  obtain ⟨design, found, view⟩ := withDefaultDesign_declares same designs
  obtain ⟨view, found'⟩ := Option.isSome_iff_exists.1 view
  simp only [Entity.viewKeyTypes?, found, found', Option.bind_eq_bind, Option.bind_some]
  rfl

end Entity

def Stored.row (stored : Stored) (id : String) : Row :=
  ⟨.str id, .str id, .map stored.fields, stored.fields⟩

namespace Database

section Named

variable {db : Database} (json : db.HoldsJson) (named : db.SelfNamed)

include json named

variable (distinct : db.documents.Distinct) {view : Value} {id : String}

include distinct

end Named

end Database

def byIdentifier (id : String) : Value := .tuple [.str allView, .str "==", .str id]

def Query.identified (id : String) : Query :=
  { Query.everything with clauses := [.eq (.str allView) (.str id)] }

def Lookup.identified (entity : Entity) (id : String) : Lookup :=
  ⟨entity.name, .str allView, [(.str "key", .str id), (.str "include_docs", .bool true)]⟩

/-- A requested field cannot be read back: no embedded record can be made of what the
document holds, or the name cannot be one of a field. -/
def Unreadable (declared : List Field) (document : Entries) (name : Value) (failure : Failure) :
    Prop :=
  (∃ field, embeddedField? declared name = some field ∧
    field.load (.ofOption (document.find? (.str name.text))) = .error failure) ∨
  name.requireHashable = .error failure

namespace Session

open SessionM

/-- What a read under an identifier answers, and what the query for it does, by the
document that is live under it. -/
inductive Agree (declared : List Field) (names : List Value) :
    Option Stored → Outcome (Option Entries) → Outcome (List Entries) → Prop
  | absent : Agree declared names none (.ok none) (.ok [])
  | decoded (stored : Stored) (record : Entries)
      (decodes : decodeDocument declared (.map stored.fields) names = .ok record) :
      Agree declared names (some stored) (.ok (some record)) (.ok [record])
  | unreadable (stored : Stored) (name : Value) (failure : Failure) (requested : name ∈ names)
      (unreadable : Unreadable declared stored.fields name failure) :
      Agree declared names (some stored) (.error failure) (.error failure)

section Reads

variable {s : Session} {ref : EntityRef} {entity : Entity} {db : Database} {id : String}
  {fields : Value} {names : List Value}

section InService

variable (free : s.memory.pendingFailure = none) (calm : s.memory.rival = none)
  (found : s.memory.databases.find? (.str (s.settings.databaseName entity.source)) = some db)

include free calm found

variable (resolves : s.resolve ref = .ok entity)
  (listed : (returnedFields fields Query.everything entity).items = .ok names)

include resolves listed

variable (reachable : s.memory.Reachable) (json : db.HoldsJson) (made : entity.IsMade)
  (named : entity.name.isText = true)
  (defined : db.views.find? (.tuple [entity.name, .str allView]) = some .byIdentifier)
  (plain : Database.isDesign (.str id) = false)

include reachable json made named defined plain

end InService

end Reads

end Session

namespace Posts

def bare : Entity :=
  ⟨.str "Post", .str "posts", Entity.missingReserved [],
    Entity.withDefaultDesign (.str "Post") [], .null⟩

def deletion : Session.Mutation := .delete (.declared bare) (.str "a") (.str "1-t")

def kept : Database :=
  { posts with
    documents := ["c", "b"].map fun id => (.str id, stored id)
    tombstones := [(.str "a", ⟨2, "t"⟩)] }

end Posts

open Posts Session SessionM

end DocMapper
