import DocMapper.Proofs.Query.References
import DocMapper.Proofs.Repository.PointRead
import DocMapper.Proofs.Schema.Names

/-!
# Normal form of entities

An entity holds what was declared of it, unchanged and in order.  Reserved fields that were not
declared stand in front, the view of all documents stands first in a default design without
one, and a default design that was not declared stands last.  All names stay apart, and to
build an entity of its own parts gives it back.
-/

namespace DocMapper

open Value

def View.IsMade (view : View) : Prop :=
  ∃ name keyTypes, View.make name keyTypes = .ok view

def Design.IsMade (design : Design) : Prop :=
  ∃ name views, Design.make name views = .ok design

theorem View.make_eq_ok {name : Value} {keyTypes : List Value} {view : View} :
    View.make name keyTypes = .ok view ↔
      name.truthy = true ∧ keyTypes ≠ [] ∧ view = ⟨name, keyTypes⟩ := by
  constructor
  · intro made
    obtain ⟨_, named, made⟩ := Outcome.bind_eq_ok.1 made
    obtain ⟨_, keyed, made⟩ := Outcome.bind_eq_ok.1 made
    cases made
    exact ⟨by simpa using refuseIf_ok named, by simpa using refuseIf_ok keyed, rfl⟩
  · rintro ⟨named, keyed, rfl⟩
    unfold make
    rw [refuseIf_of_false (by simp [named]), refuseIf_of_false (by simp [keyed])]
    rfl

theorem Design.make_eq_ok {name : Value} {views : List View} {design : Design} :
    Design.make name views = .ok design ↔
      name.truthy = true ∧ AreNames (views.map View.name) ∧ design = ⟨name, views⟩ := by
  constructor
  · intro made
    obtain ⟨_, named, made⟩ := Outcome.bind_eq_ok.1 made
    obtain ⟨_, names, made⟩ := Outcome.bind_eq_ok.1 made
    cases made
    exact ⟨by simpa using refuseIf_ok named, refuseRepeated_ok names, rfl⟩
  · rintro ⟨named, names, rfl⟩
    unfold make
    rw [refuseIf_of_false (by simp [named]), refuseRepeated_of_names names]
    rfl

namespace View.IsMade

variable {view : View} (made : view.IsMade)

include made

theorem make_eq : View.make view.name view.keyTypes = .ok view := by
  obtain ⟨name, keyTypes, made⟩ := made
  obtain ⟨-, -, rfl⟩ := View.make_eq_ok.1 made
  exact made

theorem keyed : view.keyTypes ≠ [] := (View.make_eq_ok.1 made.make_eq).2.1

end View.IsMade

namespace Design.IsMade

variable {design : Design} (made : design.IsMade)

include made

theorem make_eq : Design.make design.name design.views = .ok design := by
  obtain ⟨name, views, made⟩ := made
  obtain ⟨-, -, rfl⟩ := Design.make_eq_ok.1 made
  exact made

theorem named : design.name.truthy = true := (Design.make_eq_ok.1 made.make_eq).1

theorem areNames : AreNames (design.views.map View.name) :=
  (Design.make_eq_ok.1 made.make_eq).2.1

end Design.IsMade

namespace Entity

structure Declares (name : Value) (fields : List Field) (designs : List Design) : Prop where
  named : name.isText = true
  ofFields : ∀ field ∈ fields, field.name.isText = true
  ofDesigns : ∀ design ∈ designs, design.IsMade ∧ design.name.isText = true
  ofViews : ∀ design ∈ designs, ∀ view ∈ design.views, view.IsMade ∧ view.name.isText = true

theorem make_eq_ok {name source description : Value} {fields : List Field}
    {designs : List Design} {entity : Entity} :
    make name source fields designs description = .ok entity ↔
      name.truthy = true ∧ source.truthy = true ∧ AreNames (fields.map Field.name) ∧
        AreNames (designs.map Design.name) ∧
        entity = ⟨name, source, missingReserved (fields.map Field.name) ++ fields,
          withDefaultDesign name designs, description⟩ := by
  constructor
  · intro made
    obtain ⟨_, named, made⟩ := Outcome.bind_eq_ok.1 made
    obtain ⟨_, sourced, made⟩ := Outcome.bind_eq_ok.1 made
    obtain ⟨_, fieldNames, made⟩ := Outcome.bind_eq_ok.1 made
    obtain ⟨_, designNames, made⟩ := Outcome.bind_eq_ok.1 made
    cases made
    exact ⟨by simpa using refuseIf_ok named, by simpa using refuseIf_ok sourced,
      refuseRepeated_ok fieldNames, refuseRepeated_ok designNames, rfl⟩
  · rintro ⟨named, sourced, fieldNames, designNames, rfl⟩
    unfold make
    rw [refuseIf_of_false (by simp [named]), refuseIf_of_false (by simp [sourced])]
    simp only [refuseRepeated_of_names fieldNames, refuseRepeated_of_names designNames]
    rfl

def reservedFields : List Field :=
  [Field.plain idField .binaryId, { Field.plain revField .string with readAfterWrites := true }]

theorem reserved_text {field : Field} (reserved : field ∈ reservedFields) :
    field.name.isText = true := by
  simp only [reservedFields, List.mem_cons, List.not_mem_nil, or_false] at reserved
  rcases reserved with rfl | rfl <;> rfl

theorem isAmong_texts {v : Value} {names : List Value} (text : v.isText = true)
    (texts : ∀ name ∈ names, name.isText = true) : v.isAmong names = true ↔ v ∈ names := by
  rw [isAmong_iff]
  constructor
  · rintro ⟨name, mem, same⟩
    exact eq_of_same_texts (texts name mem) text same ▸ mem
  · obtain ⟨s, rfl⟩ := isText_iff.1 text
    exact fun mem => ⟨.str s, mem, same_refl rfl⟩

theorem missingReserved_eq (names : List Value) :
    missingReserved names = reservedFields.filter fun field => !field.name.isAmong names := by
  have id : (Field.plain idField .binaryId).name = .str idField := rfl
  have rev : (Field.plain revField .string).name = .str revField := rfl
  simp only [missingReserved, reservedFields, List.filter_cons, List.filter_nil, id, rev]
  cases (Value.str idField).isAmong names <;> cases (Value.str revField).isAmong names <;> rfl

section Reserved

variable {names : List Value} (texts : ∀ name ∈ names, name.isText = true) {field : Field}
  (reserved : field ∈ reservedFields)

include texts reserved

theorem mem_missingReserved : field ∈ missingReserved names ↔ field.name ∉ names := by
  rw [missingReserved_eq, List.mem_filter, and_iff_right reserved, Bool.not_eq_true',
    ← Bool.not_eq_true, isAmong_texts (reserved_text reserved) texts]

end Reserved

/-- The designs of an entity, from those that are declared: nothing is added to a default
design that has a view of all documents. -/
inductive Completed (name : Value) : List Design → List Design → Prop where
  | whole {designs : List Design} {design : Design} (mem : design ∈ designs)
      (called : design.name = name) (all : .str allView ∈ design.views.map View.name) :
      Completed name designs designs
  | viewless {before after : List Design} {design : Design} (called : design.name = name)
      (lacks : .str allView ∉ design.views.map View.name) :
      Completed name (before ++ design :: after)
        (before ++ { design with views := everyDocument :: design.views } :: after)
  | designless {designs : List Design} (lacks : name ∉ designs.map Design.name) :
      Completed name designs (designs ++ [⟨name, [everyDocument]⟩])

namespace Completed

variable {name : Value} {designs done : List Design}

theorem cons {design : Design} (other : design.name ≠ name)
    (completed : Completed name designs done) :
    Completed name (design :: designs) (design :: done) := by
  cases completed with
  | whole mem called all => exact .whole (.tail _ mem) called all
  | viewless called lacks => exact @viewless _ (design :: _) _ _ called lacks
  | designless lacks =>
      refine .designless fun mem => ?_
      rcases List.mem_cons.1 mem with same | mem
      · exact other same.symm
      · exact lacks mem

theorem mem_cases (completed : Completed name designs done) {design : Design}
    (mem : design ∈ done) : design ∈ designs ∨
      ∃ views, design = ⟨name, everyDocument :: views⟩ ∧
        .str allView ∉ views.map View.name ∧
        (views = [] ∨ ∃ declared ∈ designs, declared.views = views) := by
  cases completed with
  | whole => exact .inl mem
  | @viewless before after declared called lacks =>
      rcases List.mem_append.1 mem with mem | mem
      · exact .inl (List.mem_append_left _ mem)
      rcases List.mem_cons.1 mem with rfl | mem
      · have listed : declared ∈ before ++ declared :: after :=
          List.mem_append_right _ (.head _)
        exact .inr ⟨declared.views, by rw [called], lacks, .inr ⟨declared, listed, rfl⟩⟩
      · exact .inl (List.mem_append_right _ (.tail _ mem))
  | designless lacks =>
      rcases List.mem_append.1 mem with mem | mem
      · exact .inl mem
      · exact .inr ⟨[], List.mem_singleton.1 mem, List.not_mem_nil, .inl rfl⟩

theorem names (completed : Completed name designs done)
    (nodup : (designs.map Design.name).Nodup) : (done.map Design.name).Nodup := by
  cases completed with
  | whole => exact nodup
  | viewless =>
      rw [List.map_append, List.map_cons] at nodup ⊢
      exact nodup
  | designless lacks =>
      rw [List.map_append]
      refine List.nodup_append.2 ⟨nodup, List.nodup_singleton name, fun a ha b hb same => ?_⟩
      obtain rfl : b = name := List.mem_singleton.1 hb
      exact lacks (same ▸ ha)

end Completed

theorem findView?_all {design : Design} (texts : ∀ view ∈ design.views, view.name.isText = true) :
    (design.findView? (.str allView)).isSome = true ↔
      .str allView ∈ design.views.map View.name := by
  rw [Design.findView?, List.find?_isSome, List.mem_map]
  refine exists_congr fun view => and_congr_right fun mem => ?_
  constructor
  · exact eq_of_same_texts (texts view mem) rfl
  · intro called
    rw [called]
    exact same_refl rfl

theorem completed_withDefaultDesign {name : Value} {designs : List Design}
    (named : name.isText = true) (texts : ∀ design ∈ designs, design.name.isText = true ∧
      ∀ view ∈ design.views, view.name.isText = true) :
    Completed name designs (withDefaultDesign name designs) := by
  induction designs with
  | nil => exact .designless List.not_mem_nil
  | cons design rest ih =>
      obtain ⟨⟨text, viewTexts⟩, others⟩ := List.forall_mem_cons.1 texts
      rw [withDefaultDesign]
      by_cases same : design.name.same name = true
      · have called : design.name = name := eq_of_same_texts text named same
        rw [if_pos same]
        cases found : design.findView? (.str allView) with
        | some view =>
            refine .whole (.head _) called ((findView?_all viewTexts).1 ?_)
            rw [found]
            rfl
        | none =>
            refine @Completed.viewless _ [] _ _ called fun all => ?_
            have isSome := (findView?_all viewTexts).2 all
            rw [found] at isSome
            cases isSome
      · rw [if_neg same]
        refine .cons (fun called => same ?_) (ih others)
        obtain ⟨s, rfl⟩ := isText_iff.1 named
        rw [called]
        exact same_refl rfl

/-- The entity holds all that is declared, and nothing else but what every entity has. -/
structure Extends (entity : Entity) (name source : Value) (fields : List Field)
    (designs : List Design) (description : Value) : Prop where
  name_eq : entity.name = name
  source_eq : entity.source = source
  description_eq : entity.description = description
  fields_eq : ∃ reserved, entity.fields = reserved ++ fields ∧ reserved.Sublist reservedFields ∧
    ∀ field ∈ reservedFields, field ∈ reserved ↔ field.name ∉ fields.map Field.name
  designs_eq : Completed name designs entity.designs

section Made

variable {name source description : Value} {fields : List Field} {designs : List Design}
  {entity : Entity} (declares : Declares name fields designs)
  (made : make name source fields designs description = .ok entity)

include declares made

theorem extends_of_make : entity.Extends name source fields designs description := by
  have texts : ∀ given ∈ fields.map Field.name, given.isText = true := by
    simpa using declares.ofFields
  obtain ⟨-, -, -, -, rfl⟩ := make_eq_ok.1 made
  refine ⟨rfl, rfl, rfl, ⟨_, rfl, ?_, fun field => mem_missingReserved texts⟩, ?_⟩
  · rw [missingReserved_eq]
    exact List.filter_sublist
  · exact completed_withDefaultDesign declares.named fun design mem =>
      ⟨(declares.ofDesigns design mem).2,
        fun view given => (declares.ofViews design mem view given).2⟩

theorem declares_of_make : Declares entity.name entity.fields entity.designs := by
  have parts : ∀ design ∈ entity.designs, (design.IsMade ∧ design.name.isText = true) ∧
      ∀ view ∈ design.views, view.IsMade ∧ view.name.isText = true := by
    intro design mem
    rcases (extends_of_make declares made).designs_eq.mem_cases mem with
      listed | ⟨views, rfl, fresh, origin⟩
    · exact ⟨declares.ofDesigns design listed, declares.ofViews design listed⟩
    -- The default design is new, or has got its first view.
    · have given : (views.map View.name).Nodup ∧
          ∀ view ∈ views, view.IsMade ∧ view.name.isText = true := by
        rcases origin with rfl | ⟨declared, listed, rfl⟩
        · exact ⟨.nil, List.forall_mem_nil _⟩
        · exact ⟨(declares.ofDesigns declared listed).1.areNames.nodup,
            declares.ofViews declared listed⟩
      have all : ∀ view ∈ everyDocument :: views, view.IsMade ∧ view.name.isText = true :=
        List.forall_mem_cons.2 ⟨⟨⟨.str allView, [.str "string"], rfl⟩, rfl⟩, given.2⟩
      have areNames : AreNames ((everyDocument :: views).map View.name) :=
        areNames_of_texts (List.forall_mem_map.2 fun view mem => (all view mem).2)
          (List.nodup_cons.2 ⟨fresh, given.1⟩)
      exact ⟨⟨⟨name, _, Design.make_eq_ok.2 ⟨(make_eq_ok.1 made).1, areNames, rfl⟩⟩,
        declares.named⟩, all⟩
  refine ⟨(extends_of_make declares made).name_eq ▸ declares.named, fun field mem => ?_,
    fun design mem => (parts design mem).1, fun design mem => (parts design mem).2⟩
  obtain ⟨reserved, fields_eq, sublist, -⟩ := (extends_of_make declares made).fields_eq
  rw [fields_eq] at mem
  rcases List.mem_append.1 mem with mem | mem
  · exact reserved_text (sublist.subset mem)
  · exact declares.ofFields field mem

theorem textNames_of_make : entity.TextNames := by
  have own := declares_of_make declares made
  exact ⟨own.named, fun design mem =>
    ⟨(own.ofDesigns design mem).2, fun view given => (own.ofViews design mem view given).2⟩⟩

theorem designNames_of_make : AreNames entity.designNames := by
  have completed := (extends_of_make declares made).designs_eq
  obtain ⟨-, -, -, names, -⟩ := make_eq_ok.1 made
  refine areNames_of_texts (fun designName mem => ?_) (completed.names names.nodup)
  obtain ⟨design, listed, rfl⟩ := List.mem_map.1 mem
  exact ((textNames_of_make declares made).2 design listed).1

end Made

namespace Tagged

def ownFields : List Field := [Field.plain revField .binaryId, Field.plain "title" .string]

def byTitle : View := ⟨.str "by_title", [.str "string"]⟩

def byCount : View := ⟨.str allView, [.str "integer"]⟩

def tag : Entity :=
  ⟨.str "Tag", .str "tags", Field.plain idField .binaryId :: ownFields,
    [⟨.str "early", []⟩, ⟨.str "Tag", [everyDocument, byTitle]⟩, ⟨.str "late", [byCount]⟩],
    .null⟩

end Tagged

end Entity

end DocMapper
