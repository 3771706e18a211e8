import DocMapper.Proofs.Record.Encoding
import DocMapper.Proofs.Repository.PointRead
import DocMapper.Proofs.Schema.Names
import DocMapper.Record.Validate

/-!
# What validation guards

A record is accepted if it has no problems.  Its embedded values then are null or have the
shape of the records they stand for, without keys that these do not declare.  What stands
further inside is not looked at, nor whether an embedded record has its required parts.
-/

namespace DocMapper

open Value

def AllDeclared (fields : List Field) (values : Entries) : Prop :=
  ∀ e ∈ values, ∃ field ∈ fields, field.name.sameKey e.1 = true

def Embedded.Declares (embedded : Embedded) (item : Value) : Prop :=
  ∃ parts, recordFields item = .ok parts ∧ AllDeclared embedded.fields parts

def Embedded.Completes (embedded : Embedded) (item : Value) : Prop :=
  ∀ parts, recordFields item = .ok parts → ∀ part ∈ embedded.fields,
    part.required = true → part.default.isNull = true → parts.has part.name = true

def Field.embedded? (field : Field) : Option Embedded :=
  if field.kind.embeds then field.embed else none

/-- Nothing is embedded further inside, and nothing has to be given. -/
def Embedded.IsFlat (embedded : Embedded) : Prop :=
  ∀ part ∈ embedded.fields,
    part.embedded? = none ∧ ¬ (part.required = true ∧ part.default.isNull = true)

def Embedded.IsMade (embedded : Embedded) : Prop :=
  ∃ name fields recordType, Embedded.make name fields recordType = .ok embedded

def Kind.records? : Kind → Value → Option (List Value)
  | .embedsMany, value => value.array?
  | _, value => some [value]

def Field.Shaped (field : Field) (p : Embedded → Value → Prop) (value : Value) : Prop :=
  ∀ embedded ∈ field.embedded?, value = .null ∨
    ∃ items, field.kind.records? value = some items ∧ ∀ item ∈ items, p embedded item

section Shaped

variable {field : Field} {embedded : Embedded} {p q : Embedded → Value → Prop} {value : Value}

theorem Field.shaped_none (none : field.embedded? = none) : field.Shaped p value := by
  simp [Shaped, none]

theorem Field.shaped_some (some : field.embedded? = some embedded) :
    field.Shaped p value ↔ value = .null ∨
      ∃ items, field.kind.records? value = .some items ∧ ∀ item ∈ items, p embedded item := by
  simp [Shaped, some]

theorem Field.Shaped.imp (shaped : field.Shaped p value)
    (step : ∀ embedded ∈ field.embedded?, ∀ item, p embedded item → q embedded item) :
    field.Shaped q value := by
  intro embedded given
  refine (shaped embedded given).imp_right ?_
  rintro ⟨items, records, each⟩
  exact ⟨items, records, fun item mem => step embedded given item (each item mem)⟩

end Shaped

/-- The value of an embedded field, at any depth of a record. -/
inductive Occurs : List Field → Entries → Field → Value → Prop where
  | here {fields : List Field} {values : Entries} {field : Field} {value : Value}
      (declared : field ∈ fields) (found : values.find? field.name = some value) :
      Occurs fields values field value
  | inside {fields : List Field} {values parts : Entries} {outer field : Field}
      {embedded : Embedded} {value item inner : Value} {items : List Value}
      (declared : outer ∈ fields) (found : values.find? outer.name = some value)
      (embeds : outer.embedded? = some embedded)
      (records : outer.kind.records? value = some items) (mem : item ∈ items)
      (holds : recordFields item = .ok parts)
      (deeper : Occurs embedded.fields parts field inner) : Occurs fields values field inner

def Embedded.Passes (embedded : Embedded) (item : Value) : Prop :=
  ∃ parts, asMap item = .ok (.map parts) ∧ AllDeclared embedded.fields parts

theorem Embedded.Passes.declares {embedded : Embedded} {item : Value}
    (passes : embedded.Passes item) : embedded.Declares item := by
  obtain ⟨parts, map, declared⟩ := passes
  refine ⟨parts, ?_, declared⟩
  unfold asMap at map
  cases item with
  | map => cases map; rfl
  | record | eq | isIn | atLeast | atMost | compare | all =>
      obtain ⟨copy, -, map⟩ := Outcome.bind_eq_ok.1 map
      cases map
      rfl
  | _ => cases map

theorem undeclared_eq_nil {fields : List Field} {values : Entries} :
    (values.map Prod.fst).filter
        (fun key => !(fields.map Field.name).any fun name => name.sameKey key) = [] ↔
      AllDeclared fields values := by
  simp [List.filter_eq_nil_iff, AllDeclared]

theorem checkRecord_passes {place : String} {embedded : Embedded} {item : Value} :
    checkRecord place embedded item = .ok none ↔ embedded.Passes item := by
  unfold checkRecord
  rw [Outcome.bind_eq_ok]
  constructor
  · rintro ⟨value, map, passes⟩
    cases value with
    | map parts =>
        dsimp only at passes
        split at passes
        next none => exact ⟨parts, map, undeclared_eq_nil.1 (List.isEmpty_iff.1 none)⟩
        next =>
          obtain ⟨sorted, -, passes⟩ := Outcome.bind_eq_ok.1 passes
          cases passes
    | _ => cases passes
  · rintro ⟨parts, map, declared⟩
    refine ⟨.map parts, map, ?_⟩
    exact if_pos (List.isEmpty_iff.2 (undeclared_eq_nil.2 declared))

theorem checkRecords_passes (field : Value) {embedded : Embedded} (index : Nat)
    {items : List Value} :
    checkRecords field embedded index items = .ok none ↔ ∀ item ∈ items, embedded.Passes item := by
  induction items generalizing index with
  | nil => exact iff_of_true rfl nofun
  | cons item rest ih =>
      rw [List.forall_mem_cons, ← checkRecord_passes, ← ih (index + 1), checkRecords,
        Outcome.bind_eq_ok]
      constructor
      · rintro ⟨_ | problem, first, others⟩
        · exact ⟨first, others⟩
        · cases others
      · rintro ⟨first, others⟩
        exact ⟨none, first, others⟩

theorem Field.check_passes {field : Field} {value : Value} :
    field.check value = .ok none ↔ field.Shaped Embedded.Passes value := by
  obtain ⟨name, kind, required, default, embed, readAfterWrites, description⟩ := field
  cases embed with
  | none => cases kind <;> exact iff_of_true rfl (shaped_none rfl)
  | some embedded =>
      cases kind with
      | embedsOne =>
          rw [shaped_some rfl]
          change (if value.isNull then Except.ok none else checkRecord name.text embedded value) =
            .ok none ↔ _ ∨ ∃ items, some [value] = some items ∧ _
          by_cases null : value.isNull = true
          · rw [if_pos null]
            exact iff_of_true rfl (.inl (isNull_iff.1 null))
          · rw [if_neg null, checkRecord_passes, or_iff_right (mt isNull_iff.2 null)]
            simp
      | embedsMany =>
          rw [shaped_some rfl]
          change _ ↔ value = .null ∨ ∃ items, value.array? = some items ∧ _
          cases value with
          | null => exact iff_of_true rfl (.inl rfl)
          | list items | tuple items =>
              refine (checkRecords_passes name 0).trans ?_
              simp [array?]
          | _ => exact iff_of_false nofun (by simp [array?])
      | _ => exact iff_of_true rfl (shaped_none rfl)

/-! ## Accepted records -/

def Entity.Accepts (entity : Entity) (record : Value) : Prop :=
  recordProblems entity record false = .ok []

theorem unknownProblems_nil {entity : Entity} {values : Entries} :
    unknownProblems entity values = .ok [] ↔ AllDeclared entity.fields values := by
  rw [← undeclared_eq_nil]
  unfold unknownProblems
  dsimp only
  change List.mapM _ ((values.map Prod.fst).filter
    (fun key => !(entity.fields.map Field.name).any fun name => name.sameKey key)) = _ ↔ _
  cases (values.map Prod.fst).filter
    (fun key => !(entity.fields.map Field.name).any fun name => name.sameKey key) with
  | nil => exact iff_of_true rfl rfl
  | cons key rest =>
      refine iff_of_false (fun none => ?_) nofun
      obtain ⟨problem, others, -, -, some⟩ := Outcome.mapM_cons_ok.1 none
      cases some

theorem fieldProblems_found {values : Entries} {field : Field} {value : Value}
    (found : values.find? field.name = some value) :
    fieldProblems values false field = .ok [] ↔ field.Shaped Embedded.Passes value := by
  rw [← Field.check_passes, fieldProblems, found]
  refine Outcome.bind_eq_ok.trans ⟨?_, fun check => ⟨none, check, rfl⟩⟩
  rintro ⟨_ | problem, check, some⟩
  · exact check
  · cases some

theorem Entity.accepts_iff {entity : Entity} {record : Value} :
    entity.Accepts record ↔ ∃ values, recordFields record = .ok values ∧
      AllDeclared entity.fields values ∧
      ∀ field ∈ entity.fields, fieldProblems values false field = .ok [] := by
  unfold Entity.Accepts recordProblems
  rw [Outcome.bind_eq_ok]
  refine exists_congr fun values => and_congr_right fun _ => ?_
  rw [Outcome.bind_eq_ok, ← unknownProblems_nil, ← Outcome.mapM_flatten_nil]
  constructor
  · rintro ⟨unknown, checked, problems⟩
    obtain ⟨declared, checks, none⟩ := Outcome.bind_eq_ok.1 problems
    obtain ⟨rfl, flat⟩ := List.append_eq_nil_iff.1 (Except.ok.inj none)
    exact ⟨checked, declared, checks, flat⟩
  · rintro ⟨checked, declared, checks, flat⟩
    exact ⟨[], checked, Outcome.bind_eq_ok.2 ⟨declared, checks, congrArg Except.ok flat⟩⟩

theorem Entity.Accepts.declares {entity : Entity} {record : Value} {values : Entries}
    (accepts : entity.Accepts record) (fields : recordFields record = .ok values) {field : Field}
    (mem : field ∈ entity.fields) {value : Value} (found : values.find? field.name = some value) :
    field.Shaped Embedded.Declares value := by
  obtain ⟨values', fields', -, checks⟩ := accepts_iff.1 accepts
  cases fields.symm.trans fields'
  exact ((fieldProblems_found found).1 (checks field mem)).imp fun _ _ _ passes => passes.declares

def alone (before after : List Field) (field : Field) (value : Value) : Entries :=
  before.map (fun other => (other.name, .null)) ++
    (field.name, value) :: after.map fun other => (other.name, .null)

section Alone

variable {before after : List Field} {field : Field} {value : Value}

theorem alone_keys :
    (alone before after field value).map Prod.fst = (before ++ field :: after).map Field.name := by
  rw [alone, List.map_append, List.map_cons, List.map_map, List.map_map, List.map_append,
    List.map_cons]
  rfl

theorem mem_alone : (field.name, value) ∈ alone before after field value :=
  List.mem_append_right _ (.head _)

theorem find?_alone (names : AreNames ((before ++ field :: after).map Field.name)) :
    ∀ e ∈ alone before after field value,
      (alone before after field value).find? e.1 = some e.2 := by
  rw [← alone_keys] at names
  have distinct : (alone before after field value).Distinct := List.pairwise_map.1 names.apart
  exact fun e mem =>
    distinct.find?_self (sameKey_self (names.hashable _ (List.mem_map_of_mem mem))) mem

theorem alone_passes (passes : field.Shaped Embedded.Passes value) {other : Field}
    (declared : other ∈ before ++ field :: after) :
    ∃ v, (other.name, v) ∈ alone before after field value ∧ other.Shaped Embedded.Passes v := by
  have absent : other.Shaped Embedded.Passes .null := fun _ _ => .inl rfl
  rcases List.mem_append.1 declared with mem | mem
  · exact ⟨.null, List.mem_append_left _ (List.mem_map_of_mem mem), absent⟩
  · rcases List.mem_cons.1 mem with rfl | mem
    · exact ⟨value, mem_alone, passes⟩
    · exact ⟨.null, List.mem_append_right _ (List.mem_cons_of_mem _ (List.mem_map_of_mem mem)),
        absent⟩

theorem Entity.accepts_alone {entity : Entity} (names : AreNames entity.fieldNames)
    (fields : entity.fields = before ++ field :: after)
    (passes : field.Shaped Embedded.Passes value) :
    entity.Accepts (.map (alone before after field value)) := by
  rw [Entity.fieldNames, fields] at names
  refine accepts_iff.2 ⟨_, rfl, fun e mem => ?_, fun other declared => ?_⟩
  · have name : e.1 ∈ (before ++ field :: after).map Field.name :=
      alone_keys ▸ List.mem_map_of_mem mem
    obtain ⟨other, declared, called⟩ := List.mem_map.1 name
    refine ⟨other, fields ▸ declared, ?_⟩
    rw [called]
    exact sameKey_self (names.hashable _ name)
  · obtain ⟨v, mem, shaped⟩ := alone_passes passes (fields ▸ declared)
    exact (fieldProblems_found (find?_alone names _ mem)).2 shaped

end Alone

def Kind.holding : Kind → Value → Value
  | .embedsMany, item => .list [item]
  | _, item => item

theorem Kind.records?_holding (kind : Kind) (item : Value) :
    kind.records? (kind.holding item) = some [item] := by
  cases kind <;> rfl

theorem Entity.accepts_holding {entity : Entity} (names : AreNames entity.fieldNames)
    {field : Field} (mem : field ∈ entity.fields) {embedded : Embedded}
    (embeds : field.embedded? = some embedded) {item : Value} (passes : embedded.Passes item) :
    ∃ values : Entries, entity.Accepts (.map values) ∧
      values.find? field.name = some (field.kind.holding item) := by
  obtain ⟨before, after, fields⟩ := List.append_of_mem mem
  have shaped : field.Shaped Embedded.Passes (field.kind.holding item) :=
    (Field.shaped_some embeds).2
      (.inr ⟨_, Kind.records?_holding .., List.forall_mem_singleton.2 passes⟩)
  have keys : AreNames ((before ++ field :: after).map Field.name) := fields ▸ names
  exact ⟨_, accepts_alone names fields shaped, find?_alone keys _ mem_alone⟩

def Embedded.Guards (embedded : Embedded) (item : Value) : Prop :=
  embedded.Declares item ∧ embedded.Completes item

/-- No embedded value of a record, at any depth, breaks the declarations. -/
def Guarded (fields : List Field) (values : Entries) : Prop :=
  ∀ field value, Occurs fields values field value → field.Shaped Embedded.Guards value

theorem Entity.Accepts.guarded {entity : Entity} {record : Value} {values : Entries}
    (accepts : entity.Accepts record) (fields : recordFields record = .ok values)
    (flat : ∀ field ∈ entity.fields, ∀ embedded ∈ field.embedded?, embedded.IsFlat) :
    Guarded entity.fields values := by
  intro field value occurs
  cases occurs with
  | here declared found =>
      refine (accepts.declares fields declared found).imp fun embedded embeds item declares => ?_
      refine ⟨declares, fun parts _ part given required default => ?_⟩
      exact absurd ⟨required, default⟩ (flat field declared embedded embeds part given).2
  | inside declared found embeds records mem holds deeper =>
      have leaf := flat _ declared _ embeds
      cases deeper with
      | here declared => exact Field.shaped_none (leaf field declared).1
      | inside declared found embeds =>
          rw [(leaf _ declared).1] at embeds
          cases embeds

section Unguarded

variable {entity : Entity} (names : AreNames entity.fieldNames) {field : Field}
  (mem : field ∈ entity.fields) {embedded : Embedded} (embeds : field.embedded? = some embedded)
  {part : Field} (given : part ∈ embedded.fields)

include names mem embeds given

theorem Entity.accepts_incomplete (required : part.required = true)
    (default : part.default.isNull = true) :
    ∃ values, entity.Accepts (.map values) ∧ ¬ Guarded entity.fields values := by
  have passes : embedded.Passes (.map []) := ⟨[], rfl, nofun⟩
  obtain ⟨values, accepts, found⟩ := accepts_holding names mem embeds passes
  refine ⟨values, accepts, fun guarded => ?_⟩
  obtain null | ⟨items, records, each⟩ :=
    (Field.shaped_some embeds).1 (guarded field _ (.here mem found))
  · cases kind : field.kind <;> rw [kind] at null <;> cases null
  · cases (Kind.records?_holding ..).symm.trans records
    cases (each _ (.head _)).2 [] rfl part given required default

theorem Entity.accepts_shapeless (keys : AreNames embedded.fieldNames) {inner : Embedded}
    (nested : part.embedded? = some inner) :
    ∃ values, entity.Accepts (.map values) ∧ ¬ Guarded entity.fields values := by
  have self : part.name.sameKey part.name = true :=
    sameKey_self (keys.hashable _ (List.mem_map_of_mem given))
  have passes : embedded.Passes (.map [(part.name, .bool true)]) :=
    ⟨_, rfl, List.forall_mem_singleton.2 ⟨part, given, self⟩⟩
  obtain ⟨values, accepts, found⟩ := accepts_holding names mem embeds passes
  refine ⟨values, accepts, fun guarded => ?_⟩
  have held : Keyed.find? [(part.name, Value.bool true)] part.name = some (.bool true) := by
    rw [Keyed.find?_cons, if_pos self]
  -- A truth value is neither null nor a record nor an array of records.
  obtain null | ⟨items, records, each⟩ := (Field.shaped_some nested).1 (guarded part _
    (.inside mem found embeds (Kind.records?_holding ..) (.head _) rfl (.here given held)))
  · cases null
  · cases kind : part.kind with
    | embedsMany =>
        rw [kind] at records
        cases records
    | _ =>
        rw [kind] at records
        cases records
        obtain ⟨⟨parts, record, -⟩, -⟩ := each _ (.head _)
        cases record

end Unguarded

/-- An accepted record has the declared shape where its own fields embed.  That the embedded
values have it at every depth and are complete holds of all accepted records exactly if
nothing is embedded, and nothing required, in the records that the entity embeds. -/
theorem Entity.accepts_guarded_iff {entity : Entity} (made : entity.IsMade)
    (schemas : ∀ field ∈ entity.fields, ∀ embedded ∈ field.embedded?, embedded.IsMade) :
    (∀ record values, entity.Accepts record → recordFields record = .ok values →
      ∀ field ∈ entity.fields, ∀ value, values.find? field.name = some value →
        field.Shaped Embedded.Declares value) ∧
    ((∀ record values, entity.Accepts record → recordFields record = .ok values →
      Guarded entity.fields values) ↔
      ∀ field ∈ entity.fields, ∀ embedded ∈ field.embedded?, embedded.IsFlat) := by
  obtain ⟨name, source, fields, designs, description, made⟩ := made
  have names := make_names made
  refine ⟨fun record values accepts fields field mem value => accepts.declares fields mem,
    fun guarded field mem embedded embeds part given => ?_,
    fun flat record values accepts fields => accepts.guarded fields flat⟩
  have all : ¬ ∃ values, entity.Accepts (.map values) ∧ ¬ Guarded entity.fields values :=
    fun ⟨values, accepts, breaks⟩ => breaks (guarded _ values accepts rfl)
  refine ⟨Option.eq_none_iff_forall_ne_some.2 fun inner nested => ?_, ?_⟩
  · obtain ⟨_, _, _, made⟩ := schemas field mem embedded embeds
    exact all (accepts_shapeless names mem embeds given (Embedded.make_names made) nested)
  · rintro ⟨required, default⟩
    exact all (accepts_incomplete names mem embeds given required default)

namespace Grants

def grant (required : Bool) : Embedded :=
  ⟨.str "Grant", [{ Field.plain "user" .string with required := required }], none⟩

def site : Embedded := ⟨.str "Site", [Field.plain "city" .string], none⟩

def sited : Embedded :=
  ⟨.str "Grant", [{ Field.plain "site" .embedsOne with embed := some site }], none⟩

def grants (embedded : Embedded) : Field :=
  { Field.plain "grants" .embedsMany with embed := some embedded }

def post (embedded : Embedded) : Entity :=
  ⟨.str "Post", .str "posts", Entity.missingReserved [.str "grants"] ++ [grants embedded],
    Entity.withDefaultDesign (.str "Post") [], .null⟩

theorem grants_mem (embedded : Embedded) : grants embedded ∈ (post embedded).fields :=
  List.mem_append_right _ (.head _)

theorem isMade_post (embedded : Embedded) : (post embedded).IsMade :=
  ⟨.str "Post", .str "posts", [grants embedded], [], .null, rfl⟩

def granting (parts : Entries) : Entries := [(.str "grants", .list [.map parts])]

end Grants

open Grants in
theorem Entity.accepts_guarded_post :
    (post (grant false)).IsMade ∧
      (∀ field ∈ (post (grant false)).fields, ∀ embedded ∈ field.embedded?, embedded.IsMade) ∧
      (post (grant false)).Accepts (.map (granting [(.str "user", .str "ann")])) ∧
      Guarded (post (grant false)).fields (granting [(.str "user", .str "ann")]) := by
  have only : ∀ field ∈ (post (grant false)).fields, ∀ embedded ∈ field.embedded?,
      embedded = grant false := by
    have fields : (post (grant false)).fields = [Field.plain idField .binaryId,
      { Field.plain revField .string with readAfterWrites := true }, grants (grant false)] := rfl
    simp [fields, Field.embedded?, Kind.embeds, Field.plain, grants]
  have schemas : ∀ field ∈ (post (grant false)).fields, ∀ embedded ∈ field.embedded?,
      embedded.IsMade := by
    intro field mem embedded embeds
    rw [only field mem embedded embeds]
    exact ⟨.str "Grant", (grant false).fields, none, rfl⟩
  have flat : ∀ field ∈ (post (grant false)).fields, ∀ embedded ∈ field.embedded?,
      embedded.IsFlat := by
    intro field mem embedded embeds
    rw [only field mem embedded embeds]
    exact List.forall_mem_singleton.2 ⟨rfl, fun needs => Bool.false_ne_true needs.1⟩
  have guarded := (Entity.accepts_guarded_iff (isMade_post _) schemas).2.2 flat
  have accepts : (post (grant false)).Accepts (.map (granting [(.str "user", .str "ann")])) := rfl
  exact ⟨isMade_post _, schemas, accepts, guarded _ _ accepts rfl⟩

open Grants in
/-- A required part that is missing, and a part of a part that is not declared. -/
theorem Entity.accepts_unguarded :
    (post (grant true)).IsMade ∧ (post (grant true)).Accepts (.map (granting [])) ∧
      ¬ Guarded (post (grant true)).fields (granting []) ∧
    (post sited).IsMade ∧
      (post sited).Accepts (.map (granting [(.str "site", .map [(.str "bogus", .int 1)])])) ∧
      ¬ Guarded (post sited).fields (granting [(.str "site", .map [(.str "bogus", .int 1)])]) := by
  refine ⟨isMade_post _, rfl, fun guarded => ?_, isMade_post _, rfl, fun guarded => ?_⟩
  · have shaped := guarded (grants (grant true)) _ (.here (grants_mem _) rfl)
    obtain null | ⟨items, records, each⟩ := shaped (grant true) rfl
    · cases null
    · cases records
      cases (each _ (.head _)).2 [] rfl _ (.head _) rfl rfl
  · have shaped := guarded _ _ (.inside (grants_mem sited) rfl rfl rfl (.head _) rfl
      (.here (.head _) rfl))
    obtain null | ⟨items, records, each⟩ := shaped site rfl
    · cases null
    · cases records
      obtain ⟨⟨parts, record, declared⟩, -⟩ := each _ (.head _)
      cases record
      obtain ⟨part, mem, named⟩ := declared _ (.head _)
      cases List.mem_singleton.1 mem
      cases named

end DocMapper
