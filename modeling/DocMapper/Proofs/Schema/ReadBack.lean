import DocMapper.Proofs.Schema.Exported
import DocMapper.Proofs.Schema.Normal
import DocMapper.Schema.Load

/-!
# Exported entities read back

What an entity exports is read as a schema again.  Attributes that are left out have the value
that the reader takes for a missing one, and an entity that is built of its own parts gets
nothing added, so the schema of exported entities yields these entities.
-/

namespace DocMapper

open Value

namespace Value

variable {attributes : List (String × Option Value)}
  (distinct : (attributes.map Prod.fst).Nodup)

include distinct

end Value

theorem Outcome.mapM_map {α β : Type} {write : α → β} {read : β → Outcome α} {xs : List α}
    (each : ∀ x ∈ xs, read (write x) = .ok x) : (xs.map write).mapM read = .ok xs :=
  Outcome.mapM_ok (List.forall₂_map_left_iff.2 (List.forall₂_same.2 each))

def Field.IsMade (field : Field) : Prop :=
  ∃ name kind required default embed readAfterWrites description,
    Field.make name kind required default embed readAfterWrites description = .ok field

structure Field.IsLone (field : Field) : Prop where
  made : field.IsMade
  lone : field.embed = none
  described : field.description.isText = true

namespace Field

theorem make_eq_ok {name default description : Value} {kind : Kind} {embed : Option Embedded}
    {required readAfterWrites : Bool} {field : Field} :
    Field.make name kind required default embed readAfterWrites description = .ok field ↔
      name.truthy = true ∧ kind.embeds = embed.isSome ∧
        field = ⟨name, kind, required, default, embed, readAfterWrites, description⟩ := by
  constructor
  · intro made
    obtain ⟨_, named, made⟩ := Outcome.bind_eq_ok.1 made
    obtain ⟨_, missing, made⟩ := Outcome.bind_eq_ok.1 made
    obtain ⟨_, unexpected, made⟩ := Outcome.bind_eq_ok.1 made
    cases made
    have missing := refuseIf_ok missing
    have unexpected := refuseIf_ok unexpected
    refine ⟨by simpa using refuseIf_ok named, ?_, rfl⟩
    cases embed <;> simp_all
  · rintro ⟨named, embeds, rfl⟩
    unfold Field.make
    rw [refuseIf_of_false (by simp [named]), refuseIf_of_false (by simp [embeds]),
      refuseIf_of_false (by simp [embeds])]
    rfl

variable {field : Field}

theorem IsLone.make_eq (lone : field.IsLone) :
    field.kind.embeds = false ∧ Field.make field.name field.kind field.required field.default none
      field.readAfterWrites field.description = .ok field := by
  obtain ⟨⟨_, _, _, _, _, _, _, made⟩, alone, -⟩ := lone
  obtain ⟨named, embeds, rfl⟩ := make_eq_ok.1 made
  obtain rfl : _ = none := alone
  exact ⟨embeds, made⟩

theorem toValues_eq (fields : List Field) : toValues fields = fields.map toValue := by
  induction fields with
  | nil => rfl
  | cons field rest ih => rw [toValues, ih, List.map_cons]

end Field

namespace Entity

section Made

variable {name source description : Value} {fields : List Field} {designs : List Design}
  {entity : Entity} (declares : Declares name fields designs)
  (made : make name source fields designs description = .ok entity)

include declares made

end Made

/-- The entity was built of texts, of made designs and views, and of fields that embed
nothing. -/
def IsLone (entity : Entity) : Prop :=
  ∃ name source fields designs description, Declares name fields designs ∧
    (∀ field ∈ fields, field.IsLone) ∧
    make name source fields designs description = .ok entity

end Entity

namespace Noted

def ownFields : List Field :=
  [{ Field.plain revField .string with readAfterWrites := true },
    { Field.plain "title" .string with required := true, description := .str "shown" },
    { Field.plain "meta" .json with
      default := .map [(.str "marks", .list [.int 1, .null, .map []])] }]

def byTitle : View := ⟨.str "by_title", [.str "string", .str "integer"]⟩

def note : Entity :=
  ⟨.str "Note", .str "notes", Field.plain idField .binaryId :: ownFields,
    [⟨.str "early", []⟩, ⟨.str "Note", [Entity.everyDocument, byTitle]⟩], .str "Notes"⟩

def mark : Entity :=
  ⟨.str "Mark", .str "marks", Entity.reservedFields, [⟨.str "Mark", [Entity.everyDocument]⟩],
    .str ""⟩

end Noted

end DocMapper
