import DocMapper.Proofs.Record.Guarded
import DocMapper.Proofs.Record.Suggestions
import DocMapper.Proofs.Schema.Normal

/-!
# Two checks of a record

One check lists all problems of a record, the other fails with the first unknown field or else
with all problems together.  Both tell the same, in whatever order the first one is given the
known names, unless an embedded instance stands in the way that cannot be copied.
-/

namespace DocMapper

open Value
open Outcome (Ends)

def Value.TextKeyed (v : Value) : Prop :=
  v.Everywhere fun part => ∀ entries ∈ part.named?, ∀ e ∈ entries, e.1.isText = true

theorem Value.textKeyed_map {entries : Entries} :
    (map entries).TextKeyed ↔ ∀ e ∈ entries, e.1.isText = true ∧ e.2.TextKeyed := by
  simp [TextKeyed, everywhere_map, named?, forall_and]

theorem Value.textKeyed_readOnly {entries : Entries} :
    (readOnly entries).TextKeyed ↔ ∀ e ∈ entries, e.1.isText = true ∧ e.2.TextKeyed := by
  simp [TextKeyed, everywhere_readOnly, named?, forall_and]

theorem Value.textKeyed_record {type : String} {fields : List (String × Value)} :
    (record type fields).TextKeyed ↔ ∀ f ∈ fields, f.2.TextKeyed := by
  refine everywhere_record.trans (and_iff_right ?_)
  rintro entries ⟨⟩ e mem
  obtain ⟨f, -, rfl⟩ := List.mem_map.1 mem
  rfl

theorem Value.textKeyed_leaf {v : Value} (array : v.array? = none) (named : v.named? = none) :
    v.TextKeyed := by
  rw [TextKeyed, everywhere_leaf array named, named]
  rintro entries ⟨⟩

/-- An instance with a part that cannot be copied. -/
def Value.IsStuck (v : Value) : Prop := v.fields?.isSome = true ∧ v.copyable = false

/-- One of the items is stuck, and those before it pass. -/
def Embedded.Blocked (embedded : Embedded) : List Value → Prop
  | [] => False
  | item :: rest => item.IsStuck ∨ embedded.Passes item ∧ embedded.Blocked rest

def Field.Blocked (field : Field) (value : Value) : Prop :=
  ∃ embedded ∈ field.embedded?, ∃ items ∈ field.kind.records? value, embedded.Blocked items

def Entity.Blocked (entity : Entity) (values : Entries) : Prop :=
  ∃ field ∈ entity.fields, ∃ value ∈ values.find? field.name, field.Blocked value

abbrev FailsIf {α : Type} (blocked : Prop) : Outcome α → Prop :=
  Ends (fun _ => ¬ blocked) fun failure => blocked ∧ failure = .wrongType

theorem asMap_ends {value : Value} (keyed : value.TextKeyed) :
    Ends (fun map => ¬ value.IsStuck ∧
        ∀ entries, map = .map entries → ∀ e ∈ entries, e.1.isText = true)
      (fun failure => value.IsStuck ∧ failure = .wrongType) (asMap value) := by
  unfold asMap
  split
  next fields found =>
    have stuck : value.IsStuck ↔ value.copyable = false := by simp [IsStuck, found]
    rw [copied, stuck]
    cases copyable : value.copyable with
    | false => exact ⟨rfl, rfl⟩
    | true =>
        refine ⟨Bool.noConfusion, ?_⟩
        rintro entries ⟨⟩ e mem
        obtain ⟨part, -, rfl⟩ := List.mem_map.1 mem
        rfl
  next other =>
    refine ⟨fun stuck => ?_, ?_⟩
    · rw [IsStuck, other] at stuck
      cases stuck.1
    · rintro entries rfl
      exact keyed.here entries rfl

theorem sorted_texts {names : List Value} (texts : ∀ name ∈ names, name.isText = true) :
    ∃ ordered, Value.sorted names = .ok ordered := by
  have decided : ∀ a ∈ names, ∀ b ∈ names, less? a b = some (decide (a.text < b.text)) :=
    fun a ha b hb => less?_text (texts a ha) (texts b hb)
  obtain ⟨ordered, found, -⟩ := sorted?_of_place decided
  exact ⟨ordered, congrArg (Outcome.ofOption .wrongType) found⟩

theorem checkRecord_ends (place : String) (embedded : Embedded) {value : Value}
    (keyed : value.TextKeyed) : FailsIf value.IsStuck (checkRecord place embedded value) := by
  refine (asMap_ends keyed).bind fun map ⟨free, texts⟩ => ?_
  cases map with
  | map entries =>
      dsimp only
      split
      · exact free
      · have unknown : ∀ name ∈ (entries.map Prod.fst).filter
            (fun key => !embedded.fieldNames.any fun name => name.sameKey key),
              name.isText = true := fun name mem => by
          obtain ⟨e, given, rfl⟩ := List.mem_map.1 (List.mem_of_mem_filter mem)
          exact texts entries rfl e given
        obtain ⟨ordered, sorted⟩ := sorted_texts unknown
        rw [sorted]
        exact free
  | _ => exact free

theorem checkRecords_ends (field : Value) (embedded : Embedded) (index : Nat) {items : List Value}
    (keyed : ∀ item ∈ items, item.TextKeyed) :
    FailsIf (embedded.Blocked items) (checkRecords field embedded index items) := by
  induction items generalizing index with
  | nil => exact id
  | cons item rest ih =>
      obtain ⟨first, others⟩ := List.forall_mem_cons.1 keyed
      rw [checkRecords]
      refine ((checkRecord_ends _ embedded first).self.fails ?_).bind ?_
      · exact fun failure stuck => ⟨.inl stuck.1, stuck.2⟩
      · rintro problem ⟨free, checked⟩
        cases problem with
        | none =>
            have passes := checkRecord_passes.1 checked
            refine (ih (index + 1) others).imp (fun _ later blocked => ?_) fun failure later => ?_
            · exact blocked.elim free fun blocked => later blocked.2
            · exact ⟨.inr ⟨passes, later.1⟩, later.2⟩
        | some problem =>
            -- The check ends here, so that nothing behind the item can block it.
            have fails : ¬ embedded.Passes item := fun passes => by
              cases (checkRecord_passes.2 passes).symm.trans checked
            exact fun blocked => blocked.elim free fun later => fails later.1

section Field

variable {field : Field} {embedded : Embedded} {value : Value}

theorem Field.blocked_none (none : field.embedded? = none) : ¬ field.Blocked value := by
  simp [Blocked, none]

theorem Field.blocked_some (some : field.embedded? = some embedded) :
    field.Blocked value ↔ ∃ items, field.kind.records? value = .some items ∧
      embedded.Blocked items := by
  simp [Blocked, some]

theorem Field.check_ends (field : Field) (keyed : value.TextKeyed) :
    FailsIf (field.Blocked value) (field.check value) := by
  obtain ⟨name, kind, required, default, embed, readAfterWrites, description⟩ := field
  cases embed with
  | none => cases kind <;> exact blocked_none rfl
  | some embedded =>
      cases kind with
      | embedsOne =>
          have blocked : Blocked ⟨name, .embedsOne, required, default, some embedded,
              readAfterWrites, description⟩ value ↔ value.IsStuck := by
            rw [blocked_some rfl]
            change (∃ items, some [value] = some items ∧ embedded.Blocked items) ↔ _
            simp [Embedded.Blocked]
          rw [blocked]
          change FailsIf _ (if value.isNull then Except.ok none else
            checkRecord name.text embedded value)
          split
          next null =>
            rw [isNull_iff.1 null]
            exact fun stuck => Bool.false_ne_true stuck.1
          next => exact checkRecord_ends name.text embedded keyed
      | embedsMany =>
          have blocked : Blocked ⟨name, .embedsMany, required, default, some embedded,
              readAfterWrites, description⟩ value ↔
                ∃ items, value.array? = some items ∧ embedded.Blocked items := blocked_some rfl
          rw [blocked]
          cases value with
          | list items | tuple items =>
              simpa [array?, check] using checkRecords_ends name embedded 0 (keyed.item rfl)
          | _ =>
              rintro ⟨items, array, -⟩
              cases array
      | _ => exact blocked_none rfl

end Field

theorem fieldProblems_ends {values : Entries} (keyed : ∀ e ∈ values, e.2.TextKeyed)
    (isPartial : Bool) (field : Field) :
    FailsIf (∃ value ∈ values.find? field.name, field.Blocked value)
      (fieldProblems values isPartial field) := by
  unfold fieldProblems
  cases found : values.find? field.name with
  | none =>
      have free : ¬ ∃ value ∈ (none : Option Value), field.Blocked value := by simp
      dsimp only
      split
      · exact free
      · exact free
  | some value =>
      obtain ⟨key, mem, -⟩ := Keyed.mem_of_find? found
      rw [show (∃ v ∈ some value, field.Blocked v) ↔ field.Blocked value by simp]
      exact (field.check_ends (keyed _ mem)).bind fun problem free => free

/-! ## Problems, with suggestions from any names -/

def unknownProblemsAmong (known : List Value) (entity : Entity) (values : Entries) :
    Outcome (List RecordProblem) := do
  let unknown := (values.map Prod.fst).filter fun name =>
    !entity.fieldNames.any fun known => known.sameKey name
  unknown.mapM fun name => do return .unknownField name (← suggestionsFor name known)

/-- The problems of a record, where suggestions are sought among the given names. -/
def recordProblemsAmong (known : List Value) (entity : Entity) (record : Value)
    (isPartial : Bool) : Outcome (List RecordProblem) := do
  let values ← recordFields record
  let unknown ← unknownProblemsAmong known entity values
  let declared ← entity.fields.mapM (fieldProblems values isPartial)
  return unknown ++ declared.flatten

def Entity.undeclared (entity : Entity) (values : Entries) : List Value :=
  (values.map Prod.fst).filter fun name => !name.isAmong entity.fieldNames

def Entity.Reports (entity : Entity) (name : Value) (problem : RecordProblem) : Prop :=
  ∃ suggested, suggestionsFor name entity.fieldNames = .ok suggested ∧
    problem = .unknownField name suggested

section Texts

variable {entity : Entity} (names : ∀ name ∈ entity.fieldNames, name.isText = true)
  {values : Entries} (keys : ∀ e ∈ values, e.1.isText = true)

include names keys

theorem mem_undeclared {name : Value} : name ∈ entity.undeclared values ↔
    name ∈ values.map Prod.fst ∧ name ∉ entity.fieldNames := by
  rw [Entity.undeclared, List.mem_filter]
  refine and_congr_right fun mem => ?_
  obtain ⟨e, given, rfl⟩ := List.mem_map.1 mem
  rw [Bool.not_eq_true', ← Bool.not_eq_true, Entity.isAmong_texts (keys e given) names]

theorem undeclared_eq : ((values.map Prod.fst).filter fun name =>
    !entity.fieldNames.any fun known => known.sameKey name) = entity.undeclared values := by
  refine List.filter_congr fun name mem => congrArg (! ·) (Bool.eq_iff_iff.2 ?_)
  obtain ⟨e, given, rfl⟩ := List.mem_map.1 mem
  rw [Entity.isAmong_texts (keys e given) names, List.any_eq_true]
  constructor
  · rintro ⟨known, declared, same⟩
    exact eq_of_sameKey_texts (names known declared) (keys e given) same ▸ declared
  · intro declared
    obtain ⟨s, text⟩ := isText_iff.1 (keys e given)
    exact ⟨e.1, declared, text ▸ sameKey_self rfl⟩

theorem unknownProblemsAmong_perm {known : List Value} (perm : known.Perm entity.fieldNames) :
    unknownProblemsAmong known entity values = unknownProblems entity values := by
  refine Outcome.mapM_congr fun name mem => ?_
  rw [undeclared_eq names keys, mem_undeclared names keys] at mem
  obtain ⟨⟨e, given, rfl⟩, unknown⟩ := mem.imp_left List.mem_map.1
  obtain ⟨suggested, found, found'⟩ := suggestionsFor_perm (keys e given) names unknown perm.symm
  rw [found, found']

theorem unknownProblems_ends : Ends (List.Forall₂ entity.Reports (entity.undeclared values))
    (fun _ => False) (unknownProblems entity values) := by
  unfold unknownProblems
  rw [undeclared_eq names keys]
  refine Ends.mapM fun name mem => ?_
  obtain ⟨⟨e, given, rfl⟩, -⟩ := ((mem_undeclared names keys).1 mem).imp_left List.mem_map.1
  have found := suggestionsFor_texts (keys e given) names
  rw [found]
  exact ⟨_, found, rfl⟩

end Texts

section Record

variable {entity : Entity} (names : ∀ name ∈ entity.fieldNames, name.isText = true)
  {record : Value} {values : Entries} (fields : recordFields record = .ok values)
  (keyed : record.TextKeyed) (isPartial : Bool)

include fields keyed

theorem keys_text : ∀ e ∈ values, e.1.isText = true :=
  keyed.here values (named?_of_recordFields fields)

include names

theorem recordProblemsAmong_perm {known : List Value} (perm : known.Perm entity.fieldNames) :
    recordProblemsAmong known entity record isPartial = recordProblems entity record isPartial := by
  rw [recordProblemsAmong, recordProblems, fields]
  change (unknownProblemsAmong known entity values >>= _) = unknownProblems entity values >>= _
  rw [unknownProblemsAmong_perm names (keys_text fields keyed) perm]

theorem recordProblems_ends :
    Ends (fun problems => ¬ entity.Blocked values ∧ ∃ unknown declared,
        problems = unknown ++ declared ∧
          List.Forall₂ entity.Reports (entity.undeclared values) unknown)
      (fun failure => entity.Blocked values ∧ failure = .wrongType)
      (recordProblems entity record isPartial) := by
  rw [recordProblems, fields]
  refine ((unknownProblems_ends names (keys_text fields keyed)).fails
    fun _ => False.elim).bind fun unknown reports => ?_
  refine (Ends.mapM_unless fun field _ => fieldProblems_ends
    (fun e mem => keyed.entry (named?_of_recordFields fields) e mem) isPartial field).bind ?_
  exact fun declared free => ⟨free, unknown, declared.flatten, rfl, reports⟩

theorem recordProblems_blocked (blocked : entity.Blocked values) :
    recordProblems entity record isPartial = .error .wrongType := by
  have ends := recordProblems_ends names fields keyed isPartial
  cases listed : recordProblems entity record isPartial with
  | ok problems =>
      rw [listed] at ends
      exact absurd blocked ends.1
  | error failure =>
      rw [listed] at ends
      rw [ends.2]

end Record

section Raised

variable {entity : Entity} {record : Value} {values : Entries}
  (fields : recordFields record = .ok values) (isPartial : Bool)

include fields

theorem validate_undeclared {name : Value} {rest suggested : List Value}
    (undeclared : entity.undeclared values = name :: rest)
    (found : suggestionsFor name entity.fieldNames = .ok suggested) :
    validate entity record isPartial =
      .error (.fault (.unknownField name entity.name (.list suggested))) := by
  have first : (values.map Prod.fst).find? (fun name => !name.isAmong entity.fieldNames) =
      some name := by
    rw [← List.head?_filter]
    exact congrArg List.head? undeclared
  rw [validate, fields]
  dsimp only [bind, Except.bind]
  rw [first]
  dsimp only
  rw [found]

def Entity.refusal (entity : Entity) (problems : List RecordProblem) : Outcome Unit :=
  let messages := problems.map RecordProblem.message
  if messages.isEmpty then .ok ()
  else .error (.fault (.validation (.str ("Validation failed for " ++ entity.name.text ++ ": " ++
    joinTexts "; " messages)) .null (.strings messages)))

theorem validate_declared (undeclared : entity.undeclared values = []) :
    validate entity record isPartial =
      recordProblems entity record isPartial >>= entity.refusal := by
  have first : (values.map Prod.fst).find? (fun name => !name.isAmong entity.fieldNames) =
      none := by
    rw [← List.head?_filter]
    exact congrArg List.head? undeclared
  have same : recordProblems entity record isPartial =
      recordProblems entity (.map values) isPartial := by
    rw [recordProblems, fields]
    rfl
  rw [validate, fields, same]
  dsimp only [bind, Except.bind]
  rw [first]
  rfl

end Raised

structure Agree (entity : Entity) (values : Entries) (listed : Outcome (List RecordProblem))
    (raised : Outcome Unit) : Prop where
  passes : raised = .ok () ↔ listed = .ok []
  unknown : (∃ name owner suggestions,
      raised = .error (.fault (.unknownField name owner suggestions))) ↔
    ∃ key ∈ values.map Prod.fst, key ∉ entity.fieldNames
  first : ∀ name owner suggestions,
    raised = .error (.fault (.unknownField name owner suggestions)) → owner = entity.name ∧
      (∃ before after, values.map Prod.fst = before ++ name :: after ∧
        name ∉ entity.fieldNames ∧ ∀ key ∈ before, key ∈ entity.fieldNames) ∧
      ∃ suggested rest, suggestions = .list suggested ∧
        listed = .ok (.unknownField name suggested :: rest)
  otherwise : ∀ failure, raised = .error failure →
    (∀ key ∈ values.map Prod.fst, key ∈ entity.fieldNames) → ∃ message problems,
      failure = .fault (.validation message .null
        (.strings (problems.map RecordProblem.message))) ∧ listed = .ok problems

theorem Agree.succeeds {entity : Entity} {values : Entries} {listed : Outcome (List RecordProblem)}
    {raised : Outcome Unit} (agree : Agree entity values listed raised) :
    ∃ problems, listed = .ok problems := by
  cases raised with
  | ok => exact ⟨[], agree.passes.1 rfl⟩
  | error failure =>
      by_cases declared : ∀ key ∈ values.map Prod.fst, key ∈ entity.fieldNames
      · obtain ⟨_, problems, -, succeeds⟩ := agree.otherwise failure rfl declared
        exact ⟨problems, succeeds⟩
      · push Not at declared
        obtain ⟨_, _, _, raised⟩ := agree.unknown.2 declared
        obtain ⟨-, -, _, _, -, succeeds⟩ := agree.first _ _ _ raised
        exact ⟨_, succeeds⟩

section Agree

variable {entity : Entity} (names : ∀ name ∈ entity.fieldNames, name.isText = true)
  {values : Entries} (keys : ∀ e ∈ values, e.1.isText = true)

include names keys

theorem split_undeclared {name : Value} {rest : List Value}
    (undeclared : entity.undeclared values = name :: rest) :
    ∃ before after, values.map Prod.fst = before ++ name :: after ∧
      name ∉ entity.fieldNames ∧ ∀ key ∈ before, key ∈ entity.fieldNames := by
  have unknown := ((mem_undeclared names keys).1 (undeclared ▸ List.mem_cons_self)).2
  obtain ⟨before, after, given, declared, -, -⟩ := List.filter_eq_cons_iff.1 undeclared
  refine ⟨before, after, given, unknown, fun key mem => ?_⟩
  have listed : key ∈ values.map Prod.fst := given ▸ List.mem_append_left _ mem
  obtain ⟨e, held, rfl⟩ := List.mem_map.1 listed
  exact (Entity.isAmong_texts (keys e held) names).1 (by simpa using declared e.1 mem)

theorem agree_undeclared {name : Value} {rest : List Value}
    (undeclared : entity.undeclared values = name :: rest) (suggested : List Value)
    (others : List RecordProblem) :
    Agree entity values (.ok (.unknownField name suggested :: others))
      (.error (.fault (.unknownField name entity.name (.list suggested)))) := by
  have split := split_undeclared names keys undeclared
  have unknown : ∃ key ∈ values.map Prod.fst, key ∉ entity.fieldNames :=
    ⟨name, (mem_undeclared names keys).1 (undeclared ▸ List.mem_cons_self)⟩
  exact {
    passes := iff_of_false nofun nofun
    unknown := iff_of_true ⟨_, _, _, rfl⟩ unknown
    first := by
      rintro _ _ _ ⟨⟩
      exact ⟨rfl, split, suggested, others, rfl, rfl⟩
    otherwise := by
      rintro _ ⟨⟩ declared
      obtain ⟨key, mem, other⟩ := unknown
      exact absurd (declared key mem) other }

theorem agree_declared (undeclared : entity.undeclared values = [])
    (problems : List RecordProblem) :
    Agree entity values (.ok problems) (entity.refusal problems) := by
  have declared : ¬ ∃ key ∈ values.map Prod.fst, key ∉ entity.fieldNames := by
    rintro ⟨key, unknown⟩
    have mem := (mem_undeclared names keys).2 unknown
    rw [undeclared] at mem
    cases mem
  cases problems with
  | nil => exact ⟨iff_of_true rfl rfl, iff_of_false nofun declared, nofun, nofun⟩
  | cons problem rest =>
      refine ⟨iff_of_false nofun nofun, iff_of_false nofun declared, nofun, ?_⟩
      rintro _ ⟨⟩ -
      exact ⟨_, _, rfl, rfl⟩

end Agree

/-- For a record whose keys are texts at every depth, the two checks tell the same exactly if
nothing that they look into is blocked: an embedded instance with a part that cannot be copied
makes the list of problems fail. -/
theorem validate_agrees_iff {entity : Entity}
    (names : ∀ name ∈ entity.fieldNames, name.isText = true) {record : Value} {values : Entries}
    (fields : recordFields record = .ok values) (keyed : record.TextKeyed) (isPartial : Bool)
    {known : List Value} (perm : known.Perm entity.fieldNames) :
    (Agree entity values (recordProblemsAmong known entity record isPartial)
        (validate entity record isPartial) ↔ ¬ entity.Blocked values) ∧
      (entity.Blocked values →
        recordProblemsAmong known entity record isPartial = .error .wrongType) := by
  have keys := keys_text fields keyed
  have stops := recordProblems_blocked names fields keyed isPartial
  rw [recordProblemsAmong_perm names fields keyed isPartial perm]
  refine ⟨⟨fun agree blocked => ?_, fun free => ?_⟩, stops⟩
  · -- Two checks that agree never fail to list the problems.
    obtain ⟨problems, succeeds⟩ := agree.succeeds
    cases succeeds.symm.trans (stops blocked)
  have ends := recordProblems_ends names fields keyed isPartial
  cases listed : recordProblems entity record isPartial with
  | error failure =>
      rw [listed] at ends
      exact absurd ends.1 free
  | ok problems =>
      rw [listed] at ends
      obtain ⟨-, unknown, declared, rfl, reports⟩ := ends
      cases undeclared : entity.undeclared values with
      | nil =>
          rw [validate_declared fields isPartial undeclared, listed]
          exact agree_declared names keys undeclared _
      | cons name rest =>
          rw [undeclared] at reports
          obtain ⟨_, others, ⟨suggested, found, rfl⟩, -, rfl⟩ :=
            List.forall₂_cons_left_iff.1 reports
          rw [validate_undeclared fields isPartial undeclared found]
          exact agree_undeclared names keys undeclared suggested _

namespace Described

def about : Field :=
  { Field.plain "meta" .embedsOne with
    embed := some ⟨.str "Meta", [Field.plain "lang" .json], none⟩ }

def post : Entity :=
  ⟨.str "Post", .str "posts", Entity.missingReserved [.str "meta"] ++ [about],
    Entity.withDefaultDesign (.str "Post") [], .null⟩

def describing (before : Entries) (lang : Value) : Entries :=
  before ++ [(.str "meta", .record "Meta" [("lang", lang)])]

theorem names_post : ∀ name ∈ post.fieldNames, name.isText = true := by
  have names : post.fieldNames = [.str idField, .str revField, .str "meta"] := rfl
  simp [names, isText]

theorem keyed_describing {before : Entries} {lang : Value}
    (keyed : ∀ e ∈ before, e.1.isText = true ∧ e.2.TextKeyed) (inner : lang.TextKeyed) :
    (Value.map (describing before lang)).TextKeyed := by
  rw [textKeyed_map, describing, List.forall_mem_append, List.forall_mem_singleton,
    textKeyed_record, List.forall_mem_singleton]
  exact ⟨keyed, rfl, inner⟩

def misspelled : Entries :=
  describing [(.str "mta", .null)] (.map [(.str "code", .str "en")])

theorem free_misspelled : ¬ post.Blocked misspelled := by
  have fields : post.fields = [Field.plain idField .binaryId,
    { Field.plain revField .string with readAfterWrites := true }, about] := rfl
  rintro ⟨field, mem, value, found, embedded, embeds, items, records, blocked⟩
  simp only [fields, List.mem_cons, List.not_mem_nil, or_false] at mem
  rcases mem with rfl | rfl | rfl
  · cases embeds
  · cases embeds
  · cases embeds
    cases found
    cases records
    rcases blocked with ⟨-, stuck⟩ | ⟨-, none⟩
    · cases stuck
    · exact none

end Described

open Described in
theorem validate_agrees_misspelled :
    (∀ name ∈ post.fieldNames, name.isText = true) ∧ (Value.map misspelled).TextKeyed ∧
      post.fieldNames.reverse.Perm post.fieldNames ∧ ¬ post.Blocked misspelled ∧
      Agree post misspelled
        (recordProblemsAmong post.fieldNames.reverse post (.map misspelled) false)
        (validate post (.map misspelled) false) := by
  have keyed : (Value.map misspelled).TextKeyed := by
    refine keyed_describing (List.forall_mem_singleton.2 ⟨rfl, textKeyed_leaf rfl rfl⟩) ?_
    exact textKeyed_map.2 (List.forall_mem_singleton.2 ⟨rfl, textKeyed_leaf rfl rfl⟩)
  have perm := List.reverse_perm post.fieldNames
  exact ⟨names_post, keyed, perm, free_misspelled,
    (validate_agrees_iff names_post rfl keyed false perm).1.2 free_misspelled⟩

open Described in
/-- An instance that holds a read-only map stops both checks, and beside an unknown field only
the one that lists the problems. -/
theorem validate_disagrees_readOnly :
    let values := describing [] (.readOnly [])
    let unknown := describing [(.str "bogus", .int 1)] (.readOnly [])
    post.IsMade ∧ (Value.map values).TextKeyed ∧ (Value.map unknown).TextKeyed ∧
      validate post (.map values) false = .error .wrongType ∧
      recordProblems post (.map values) false = .error .wrongType ∧
      (∃ suggested, validate post (.map unknown) false =
        .error (.fault (.unknownField (.str "bogus") (.str "Post") (.list suggested)))) ∧
      recordProblems post (.map unknown) false = .error .wrongType := by
  have inner : (Value.readOnly []).TextKeyed := textKeyed_readOnly.2 (List.forall_mem_nil _)
  have keyed : (Value.map (describing [(.str "bogus", .int 1)] (.readOnly []))).TextKeyed :=
    keyed_describing (List.forall_mem_singleton.2 ⟨rfl, textKeyed_leaf rfl rfl⟩) inner
  have found := suggestionsFor_texts (rfl : (Value.str "bogus").isText = true) names_post
  have blocked : post.Blocked (describing [(.str "bogus", .int 1)] (.readOnly [])) :=
    ⟨about, .tail _ (.tail _ (.head _)), _, rfl, _, rfl, _, rfl, .inl ⟨rfl, rfl⟩⟩
  exact ⟨⟨.str "Post", .str "posts", [about], [], .null, rfl⟩,
    keyed_describing (List.forall_mem_nil _) inner, keyed, rfl, rfl,
    ⟨_, validate_undeclared rfl false rfl found⟩,
    recordProblems_blocked names_post rfl keyed false blocked⟩

end DocMapper
