import DocMapper.Proofs.Outcome
import DocMapper.Proofs.Value.Parts
import DocMapper.Schema.Load

/-!
# The form of a schema

A schema has the form that it should have if its parts are lists of maps and its names are
texts, where they are given at all.  Such a schema can still be malformed: among its embedded
schemas some faults show where a part is read, others only when a declaration is made of it.
-/

namespace DocMapper

open Outcome (Ends)

namespace Value

def under (raw : Value) (key : String) : Value :=
  .ofOption ((raw.entries?.getD []).find? (.str key))

def parts (raw : Value) (key : String) : List Value :=
  ((raw.under key).array?).getD []

def MaybeText (v : Value) : Prop := v = .null ∨ v.isText = true

def MaybeList (p : Value → Prop) (v : Value) : Prop :=
  v = .null ∨ ∃ items, v.array? = some items ∧ ∀ item ∈ items, p item

theorem MaybeText.isJson {v : Value} (h : v.MaybeText) : v.isJson = true := by
  rcases h with rfl | text
  · rfl
  · obtain ⟨s, rfl⟩ := isText_iff.1 text
    rfl

theorem MaybeText.hashable {v : Value} (h : v.MaybeText) : v.hashable = true := by
  rcases h with rfl | text
  · rfl
  · obtain ⟨s, rfl⟩ := isText_iff.1 text
    rfl

theorem MaybeText.isText {v : Value} (h : v.MaybeText) (truthy : v.truthy = true) :
    v.isText = true := by
  rcases h with rfl | text
  · cases truthy
  · exact text

section Mapping

variable {raw : Value} (mapping : raw.entries?.isSome = true) (key : String)

include mapping

theorem get_mapping : raw.get key = .ok (raw.under key) := by
  obtain ⟨entries, some⟩ := Option.isSome_iff_exists.1 mapping
  rw [get, Value.mapping, under, some]
  rfl

theorem getOr_ends (absent : Value) {E : Failure → Prop} :
    Ends (fun v => v = raw.under key ∨ v = absent ∧ raw.under key = .null) E
      (raw.getOr key absent) := by
  obtain ⟨entries, some⟩ := Option.isSome_iff_exists.1 mapping
  rw [getOr, Value.mapping, under, some]
  change (entries.find? (.str key)).getD absent = ofOption (entries.find? (.str key)) ∨
    _ ∧ ofOption (entries.find? (.str key)) = _
  cases entries.find? (.str key) with
  | none => exact .inr ⟨rfl, rfl⟩
  | some v => exact .inl rfl

theorem partItems_mapping {p : Value → Prop} (listed : (raw.under key).MaybeList p) :
    partItems raw key = .ok (raw.parts key) ∧ ∀ part ∈ raw.parts key, p part := by
  rw [partItems, get_mapping mapping, parts]
  rcases listed with null | ⟨items, array, each⟩
  · rw [null]
    exact ⟨rfl, List.forall_mem_nil _⟩
  · rw [array]
    refine ⟨?_, each⟩
    cases v : raw.under key <;> rw [v] at array <;> cases array <;> cases items <;> rfl

end Mapping

def IsNamed (raw : Value) : Prop := (raw.under "name").truthy = true

/-- What is read, with an empty text for what is not given, stands in the map itself unless
it is empty. -/
theorem truthy_under {raw v : Value} {key : String}
    (origin : v = raw.under key ∨ v = .str "" ∧ raw.under key = .null) :
    ((raw.under key).truthy = true ↔ v.truthy = true) ∧
      ((raw.under key).truthy = true → v = raw.under key) := by
  rcases origin with rfl | ⟨rfl, null⟩
  · exact ⟨Iff.rfl, fun _ => rfl⟩
  · rw [null]
    exact ⟨Iff.rfl, fun given => absurd given Bool.false_ne_true⟩

structure FieldShaped (raw : Value) : Prop where
  mapping : raw.entries?.isSome = true
  name : (raw.under "name").MaybeText
  kind : (raw.under "kind").MaybeText
  embed : (raw.under "embed").MaybeText

structure ViewShaped (raw : Value) : Prop where
  mapping : raw.entries?.isSome = true
  name : (raw.under "name").MaybeText
  keyTypes : (raw.under "key_types").MaybeList fun type => type.isText = true

structure DesignShaped (raw : Value) : Prop where
  mapping : raw.entries?.isSome = true
  name : (raw.under "name").MaybeText
  views : (raw.under "views").MaybeList ViewShaped

structure EmbeddedShaped (raw : Value) : Prop where
  mapping : raw.entries?.isSome = true
  name : (raw.under "name").MaybeText
  fields : (raw.under "fields").MaybeList FieldShaped

structure EntityShaped (raw : Value) : Prop extends EmbeddedShaped raw where
  source : (raw.under "source").MaybeText
  designs : (raw.under "designs").MaybeList DesignShaped

/-- The parts of a schema have the forms that they should have; any of them may be missing. -/
structure SchemaShaped (data : Value) : Prop where
  mapping : data.entries?.isSome = true
  embedded : (data.under "embedded").MaybeList EmbeddedShaped
  entities : (data.under "entities").MaybeList EntityShaped

/-- A field has a kind, and the schema that it embeds, if it embeds one, is known. -/
def IsReadable (known : List Value) (raw : Value) : Prop :=
  ∃ kind : Kind, raw.under "kind" = .str kind.name ∧
    (kind.embeds = true → raw.under "embed" ∈ known)

def NamelessFirst (known : List Value) : List Value → Prop
  | [] => False
  | raw :: rest => raw.IsReadable known ∧ (raw.IsNamed → NamelessFirst known rest)

def AreSound (known : List Value) (fields : List Value) : Prop :=
  ∀ raw ∈ fields, raw.IsReadable known ∧ raw.IsNamed

structure IsSound (known : List Value) (raw : Value) : Prop where
  fields : AreSound known (raw.parts "fields")
  named : raw.IsNamed
  apart : ((raw.parts "fields").map fun field => field.under "name").Nodup

/-- What is wrong with an embedded schema shows only when a declaration is made of it: the
first malformed field has no name, or the fields are in order, but the schema has no name or
two of them share one. -/
def Escapes (known : List Value) (raw : Value) : Prop :=
  NamelessFirst known (raw.parts "fields") ∨
    AreSound known (raw.parts "fields") ∧ ¬ raw.IsSound known

def FirstEscapes (known : List Value) : List Value → Prop
  | [] => False
  | raw :: rest => raw.Escapes known ∨
      raw.IsSound known ∧ FirstEscapes (raw.under "name" :: known) rest

def SchemaEscapes (data : Value) : Prop :=
  (∃ entries, data = .map entries) ∧ FirstEscapes [] (data.parts "embedded")

theorem NamelessFirst.not_sound {known : List Value} {fields : List Value}
    (nameless : NamelessFirst known fields) : ¬ AreSound known fields := by
  induction fields with
  | nil => exact nameless.elim
  | cons raw rest ih =>
      intro sound
      obtain ⟨⟨-, named⟩, others⟩ := List.forall_mem_cons.1 sound
      exact ih (nameless.2 named) others

theorem Escapes.not_sound {known : List Value} {raw : Value} (escapes : raw.Escapes known) :
    ¬ raw.IsSound known := by
  rcases escapes with nameless | ⟨-, unsound⟩
  · exact fun sound => nameless.not_sound sound.fields
  · exact unsound

end Value

end DocMapper
