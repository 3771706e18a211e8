import DocMapper.Proofs.Record.RoundTrip
import DocMapper.Proofs.Schema.Normal
import DocMapper.Record.Project
import Mathlib.Data.List.Pairwise

/-!
# Projected rows

A projection yields one record for each row, in order, until it comes to a row without a
document or with an embedded value that no record can be made of.  A record has the requested
fields in the order of the request, a repeated one once, and null for those that its document
lacks.  A projector reads a list of its own, which nobody else can change.
-/

namespace DocMapper

open Value

/-- A record is made of a map.  What a map holds of the declared names goes to the record type,
which has to know all of them and to get every field for which it has no default. -/
def Embedded.Takes (embedded : Embedded) (value : Value) : Prop :=
  ∃ entries, value.entries? = some entries ∧ ∀ type ∈ embedded.recordType,
    (∀ name ∈ embedded.fieldNames, entries.has name = true →
      ∃ f ∈ type.fields, (Value.str f.1).sameKey name = true) ∧
    ∀ f ∈ type.fields, f.2 = none →
      ∃ name ∈ embedded.fieldNames, entries.has name = true ∧ name.sameKey (.str f.1) = true

def Field.Takes (field : Field) (value : Value) : Prop :=
  match field.kind, field.embed with
  | .embedsOne, some embedded => embedded.Takes value
  | .embedsMany, some embedded =>
      ∃ items, value = .list items ∧ ∀ item ∈ items, embedded.Takes item
  | _, _ => True

theorem instantiate_iff {type : RecordType} {parts : Entries} :
    (∃ made, type.instantiate parts = .ok made) ↔
      (∀ part ∈ parts, ∃ f ∈ type.fields, (Value.str f.1).sameKey part.1 = true) ∧
        ∀ f ∈ type.fields, f.2 = none → parts.has (.str f.1) = true := by
  have known : (parts.all fun p => type.fields.any fun f => (Value.str f.1).sameKey p.1) = true ↔
      ∀ part ∈ parts, ∃ f ∈ type.fields, (Value.str f.1).sameKey part.1 = true := by
    simp only [List.all_eq_true, List.any_eq_true]
  rw [← known]
  unfold RecordType.instantiate
  cases parts.all fun p => type.fields.any fun f => (Value.str f.1).sameKey p.1 with
  | false =>
      refine iff_of_false ?_ (fun both => Bool.false_ne_true both.1)
      rintro ⟨made, fails⟩
      cases fails
  | true =>
      rw [and_iff_right rfl]
      refine Outcome.exists_bind_pure.trans (Outcome.exists_mapM_ok_iff.trans ?_)
      refine forall₂_congr fun f mem => ?_
      obtain ⟨name, default⟩ := f
      unfold Keyed.has
      cases found : Keyed.find? parts (.str name) <;> cases default <;> simp [found]

theorem mem_declaredParts {names : List Value} {entries : Entries} {part : Value × Value} :
    part ∈ (names.filterMap fun name => (entries.find? name).map fun value => (name, value)) ↔
      part.1 ∈ names ∧ entries.find? part.1 = some part.2 := by
  obtain ⟨name, value⟩ := part
  simp only [List.mem_filterMap, Option.map_eq_some_iff, Prod.mk.injEq]
  constructor
  · rintro ⟨name, mem, value, found, rfl, rfl⟩
    exact ⟨mem, found⟩
  · rintro ⟨mem, found⟩
    exact ⟨name, mem, value, found, rfl, rfl⟩

section Loaders

variable {embedded : Embedded} {value : Value}

theorem loadRecord_iff :
    (∃ loaded, loadRecord embedded value = .ok loaded) ↔ embedded.Takes value := by
  unfold loadRecord Embedded.Takes
  cases value.entries? with
  | none => simp
  | some entries =>
      cases embedded.recordType with
      | none => simp
      | some type =>
          simp only [instantiate_iff, Option.mem_some_iff, forall_eq', Option.some.injEq,
            exists_eq_left']
          have has : ∀ {name}, entries.has name = true ↔ ∃ value, entries.find? name = some value :=
            Option.isSome_iff_exists
          refine and_congr ⟨fun known name mem given => ?_, fun known part mem => ?_⟩
            (forall₃_congr fun f _ _ => ?_)
          · obtain ⟨value, found⟩ := has.1 given
            exact known (name, value) (mem_declaredParts.2 ⟨mem, found⟩)
          · obtain ⟨mem, found⟩ := mem_declaredParts.1 mem
            exact known part.1 mem (has.2 ⟨part.2, found⟩)
          · rw [Keyed.has_iff]
            constructor
            · rintro ⟨part, mem, same⟩
              obtain ⟨mem, found⟩ := mem_declaredParts.1 mem
              exact ⟨part.1, mem, has.2 ⟨part.2, found⟩, same⟩
            · rintro ⟨name, mem, given, same⟩
              obtain ⟨value, found⟩ := has.1 given
              exact ⟨(name, value), mem_declaredParts.2 ⟨mem, found⟩, same⟩

theorem loadRecords_iff : (∃ loaded, loadRecords embedded value = .ok loaded) ↔
    ∃ items, value = .list items ∧ ∀ item ∈ items, embedded.Takes item := by
  cases value with
  | list items =>
      simp only [Value.list.injEq, exists_eq_left', ← loadRecord_iff]
      exact Outcome.exists_bind_pure.trans Outcome.exists_mapM_ok_iff
  | _ => simp [loadRecords]

theorem load_iff {field : Field} :
    (∃ loaded, field.load value = .ok loaded) ↔ field.Takes value := by
  unfold Field.load Field.Takes
  cases field.embed with
  | none => cases field.kind <;> simp
  | some embedded =>
      cases field.kind with
      | embedsOne => exact loadRecord_iff
      | embedsMany => exact loadRecords_iff
      | _ => simp

end Loaders

namespace Projection

structure LoadedBy (declared : List Field) (name : String) (field : Field) : Prop where
  mem : field ∈ declared
  embeds : field.kind.embeds = true
  named : field.name.sameKey (.str name) = true

/-- What a document gives for a requested name: null for one that it lacks, a record for an
embedded value, and any other value as it is. -/
inductive Gives (declared : List Field) (document : Document) (name : String) : Value → Prop
  | absent (missing : document.find? (.str name) = none) : Gives declared document name .null
  | null (present : document.find? (.str name) = some .null) : Gives declared document name .null
  | raw (value : Value) (present : document.find? (.str name) = some value)
      (plain : ∀ field, ¬ LoadedBy declared name field) : Gives declared document name value
  | loaded (field : Field) (value loaded : Value)
      (present : document.find? (.str name) = some value) (given : value ≠ .null)
      (loadedBy : LoadedBy declared name field) (loads : field.load value = .ok loaded) :
      Gives declared document name loaded

structure Unloadable (declared : List Field) (document : Document) (name : String)
    (field : Field) (value : Value) : Prop where
  present : document.find? (.str name) = some value
  given : value ≠ .null
  loadedBy : LoadedBy declared name field
  refused : ¬ field.Takes value

def Decoded (declared : List Field) (document : Document) (names : List String)
    (record : Entries) : Prop :=
  List.Forall₂ (fun name entry => entry.1 = .str name ∧ Gives declared document name entry.2)
    names.eraseDups record

section Fields

variable {declared : List Field} {document : Document} {name : String} {field : Field}
  {holder value : Value}

theorem embeddedField?_eq_none (plain : ∀ field, ¬ LoadedBy declared name field) :
    embeddedField? declared (.str name) = none := by
  unfold embeddedField?
  rw [List.find?_eq_none]
  intro field mem named
  obtain ⟨mem, embeds⟩ := List.mem_filter.1 mem
  exact plain field ⟨mem, embeds, named⟩

theorem LoadedBy.embeddedField? (loadedBy : LoadedBy declared name field)
    (areNames : AreNames (declared.map Field.name)) :
    embeddedField? declared (.str name) = some field := by
  have apart : declared.Pairwise fun a b =>
      ¬ (a.name.sameKey (.str name) = true ∧ b.name.sameKey (.str name) = true) := by
    refine (List.pairwise_map.1 areNames.apart).imp fun apart both => ?_
    rw [sameKey_of_text both.1 both.2] at apart
    cases apart
  have : Std.Symm fun a b : Field =>
      ¬ (a.name.sameKey (.str name) = true ∧ b.name.sameKey (.str name) = true) :=
    ⟨fun _ _ apart both => apart both.symm⟩
  have some' : (DocMapper.embeddedField? declared (.str name)).isSome = true :=
    List.find?_isSome.2 ⟨field, List.mem_filter.2 ⟨loadedBy.mem, loadedBy.embeds⟩, loadedBy.named⟩
  obtain ⟨found, hfound⟩ := Option.isSome_iff_exists.1 some'
  have mem : found ∈ declared := (List.mem_filter.1 (List.mem_of_find?_eq_some hfound)).1
  have named : found.name.sameKey (.str name) = true :=
    List.find?_some (p := fun other : Field => other.name.sameKey (.str name)) hfound
  rw [hfound]
  by_contra other
  have differ : found ≠ field := fun same => other (congrArg some same)
  exact apart.forall mem loadedBy.mem differ ⟨named, loadedBy.named⟩

theorem decodeField_eq (holds : holder.entries? = some document) :
    decodeField declared holder (.str name) =
      match embeddedField? declared (.str name) with
      | some field =>
          if (Value.ofOption (document.find? (.str name))).isNull then
            .ok (.ofOption (document.find? (.str name)))
          else field.load (.ofOption (document.find? (.str name)))
      | none => .ok (.ofOption (document.find? (.str name))) := by
  have get : holder.get name = .ok (.ofOption (document.find? (.str name))) := by
    rw [Value.get, mapping, holds]
    rfl
  unfold decodeField
  rw [show (Value.str name).text = name from rfl, get]
  rfl

theorem Unloadable.exists_failure (unloadable : Unloadable declared document name field value) :
    ∃ failure, field.load value = .error failure := by
  cases loads : field.load value with
  | error failure => exact ⟨failure, rfl⟩
  | ok loaded => exact absurd (load_iff.1 ⟨loaded, loads⟩) unloadable.refused

variable (areNames : AreNames (declared.map Field.name))
  (holds : holder.entries? = some document)

include areNames holds

theorem decodeField_gives (gives : Gives declared document name value) :
    decodeField declared holder (.str name) = .ok value := by
  rw [decodeField_eq holds]
  cases gives with
  | absent missing =>
      rw [missing]
      split <;> rfl
  | null present =>
      rw [present]
      split <;> rfl
  | raw _ present plain => rw [embeddedField?_eq_none plain, present]; rfl
  | loaded field found _ present given loadedBy loads =>
      have notNull : ¬ found.isNull = true := fun null => given (isNull_iff.1 null)
      rw [loadedBy.embeddedField? areNames, present]
      exact (if_neg notNull).trans loads

theorem decodeField_unloadable {failure : Failure}
    (unloadable : Unloadable declared document name field value)
    (fails : field.load value = .error failure) :
    decodeField declared holder (.str name) = .error failure := by
  have notNull : ¬ value.isNull = true := fun null => unloadable.given (isNull_iff.1 null)
  rw [decodeField_eq holds, unloadable.loadedBy.embeddedField? areNames, unloadable.present]
  exact (if_neg notNull).trans fails

end Fields

theorem gives_or_unloadable (declared : List Field) (document : Document) (name : String) :
    (∃ value, Gives declared document name value) ∨
      ∃ field value, Unloadable declared document name field value := by
  cases present : document.find? (.str name) with
  | none => exact .inl ⟨_, .absent present⟩
  | some value =>
      by_cases null : value = .null
      · exact .inl ⟨_, .null (null ▸ present)⟩
      by_cases plain : ∀ field, ¬ LoadedBy declared name field
      · exact .inl ⟨_, .raw value present plain⟩
      obtain ⟨field, loadedBy⟩ := not_forall_not.1 plain
      by_cases takes : field.Takes value
      · obtain ⟨loaded, loads⟩ := load_iff.2 takes
        exact .inl ⟨_, .loaded field value loaded present null loadedBy loads⟩
      · exact .inr ⟨field, value, present, null, loadedBy, takes⟩

section Documents

variable {declared : List Field} {document : Document} {names : List String} {holder : Value}
  (areNames : AreNames (declared.map Field.name)) (holds : holder.entries? = some document)

theorem find?_listed (value : String → Value) (names : List String) (name : String) :
    Keyed.find? (names.map fun s => (Value.str s, value s)) (.str name) =
      if name ∈ names then some (value name) else none := by
  induction names with
  | nil => rfl
  | cons first rest ih =>
      rw [List.map_cons, Keyed.find?_cons, ih, sameKey_str]
      by_cases same : first = name
      · simp [same]
      · simp [same, Ne.symm same]

theorem set_eraseDups (value : String → Value) (seen : List String) (name : String) :
    Keyed.set (seen.eraseDups.map fun s => (Value.str s, value s)) (.str name) (value name) =
      (seen ++ [name]).eraseDups.map fun s => (Value.str s, value s) := by
  have found := find?_listed value seen.eraseDups name
  rw [List.eraseDups_append, List.map_append]
  by_cases mem : name ∈ seen
  · rw [if_pos (List.mem_eraseDups.2 mem)] at found
    rw [Keyed.set_eq_self found]
    simp [List.removeAll, mem]
  · rw [if_neg (mt List.mem_eraseDups.1 mem)] at found
    rw [Keyed.set_absent _ (by simp [Keyed.has, found])]
    simp [List.removeAll, mem, List.eraseDups_cons]

include areNames holds

theorem decodeDocument_gives {value : String → Value}
    (gives : ∀ name ∈ names, Gives declared document name (value name)) :
    decodeDocument declared holder (names.map .str) =
      .ok (names.eraseDups.map fun name => (.str name, value name)) := by
  have run : ∀ seen : List String, (names.map Value.str).foldlM (fun record name => do
      return Keyed.set record name (← decodeField declared holder name))
        (seen.eraseDups.map fun name => (Value.str name, value name)) =
      .ok ((seen ++ names).eraseDups.map fun name => (.str name, value name)) := by
    induction names with
    | nil => exact fun seen => by rw [List.append_nil]; rfl
    | cons name rest ih =>
        intro seen
        obtain ⟨first, others⟩ := List.forall_mem_cons.1 gives
        rw [List.map_cons, List.foldlM_cons, decodeField_gives areNames holds first]
        have next := ih others (seen ++ [name])
        rw [← set_eraseDups, ← List.append_cons] at next
        exact next
  exact run []

theorem decodeDocument_decoded
    (gives : ∀ name ∈ names, ∃ value, Gives declared document name value) :
    ∃ record, decodeDocument declared holder (names.map .str) = .ok record ∧
      Decoded declared document names record := by
  choose! value gives using gives
  refine ⟨_, decodeDocument_gives areNames holds gives, ?_⟩
  refine List.forall₂_map_right_iff.2 (List.forall₂_same.2 fun name mem => ⟨rfl, ?_⟩)
  exact gives name (List.mem_eraseDups.1 mem)

theorem decodeDocument_unloadable {earlier later : List String} {name : String} {field : Field}
    {value : Value} {failure : Failure}
    (gives : ∀ name ∈ earlier, ∃ value, Gives declared document name value)
    (unloadable : Unloadable declared document name field value)
    (fails : field.load value = .error failure) :
    decodeDocument declared holder ((earlier ++ name :: later).map .str) = .error failure := by
  obtain ⟨record, decodes, -⟩ := decodeDocument_decoded areNames holds gives
  unfold decodeDocument at decodes ⊢
  have next := decodeField_unloadable areNames holds unloadable fails
  rw [List.map_append, List.foldlM_append, decodes, List.map_cons]
  refine Outcome.bind_eq_error.2 (.inr ⟨record, rfl, ?_⟩)
  rw [List.foldlM_cons, next]
  rfl

end Documents

/-! ## Rows -/

def Carries (row : Value) (document : Document) : Prop :=
  ∃ entries holder, row.entries? = some entries ∧
    entries.find? (.str "doc") = some holder ∧ holder.entries? = some document

def Undocumented (row : Value) (entries : Entries) : Prop :=
  row.entries? = some entries ∧
    (entries.find? (.str "doc") = none ∨ entries.find? (.str "doc") = some .null)

def IsRow (row : Value) : Prop :=
  (∃ document, Carries row document) ∨ ∃ entries, Undocumented row entries

def undocumented (entries : Entries) : Failure :=
  .fault (.dataIntegrity
    (.str ("View row '" ++ (Value.ofOption (entries.find? (.str "id"))).text ++
      "' has no document; was include_docs requested?")) (.map entries))

inductive Blocked (declared : List Field) (names : List String) (row : Value) : Prop
  | undocumented (entries : Entries) (lacks : Undocumented row entries)
  | unloadable (document : Document) (name : String) (field : Field) (value : Value)
      (carries : Carries row document) (requested : name ∈ names)
      (unloadable : Unloadable declared document name field value)

/-- The failure that such a row ends a projection with: the fault that carries the row, or the
loader's failure at the first requested value that it does not take. -/
inductive Stops (declared : List Field) (names : List String) (row : Value) : Failure → Prop
  | undocumented (entries : Entries) (lacks : Undocumented row entries) :
      Stops declared names row (undocumented entries)
  | unloadable (document : Document) (earlier later : List String) (name : String)
      (field : Field) (value : Value) (failure : Failure) (carries : Carries row document)
      (requested : names = earlier ++ name :: later)
      (gives : ∀ name ∈ earlier, ∃ value, Gives declared document name value)
      (unloadable : Unloadable declared document name field value)
      (fails : field.load value = .error failure) : Stops declared names row failure

def Yields (declared : List Field) (names : List String) (row : Value) (record : Entries) : Prop :=
  ∃ document, Carries row document ∧ Decoded declared document names record

section Rows

variable {declared : List Field} {names : List String} {row : Value} {failure : Failure}

theorem Stops.blocked (stops : Stops declared names row failure) : Blocked declared names row := by
  cases stops with
  | undocumented entries lacks => exact .undocumented entries lacks
  | unloadable document earlier later name field value _ carries requested _ unloadable =>
      exact .unloadable document name field value carries (by simp [requested]) unloadable

theorem projectRow_undocumented {entries : Entries} (lacks : Undocumented row entries)
    (names : Outcome (List Value)) :
    projectRow declared names row = .error (undocumented entries) := by
  obtain ⟨holds, missing⟩ := lacks
  have null : Value.ofOption (entries.find? (.str "doc")) = .null := by
    rcases missing with missing | missing <;> rw [missing] <;> rfl
  have get : ∀ key, row.get key = .ok (.ofOption (entries.find? (.str key))) := by
    intro key
    rw [Value.get, mapping, holds]
    rfl
  have own : row.asEntries = .ok entries := by
    rw [Value.asEntries, holds]
  unfold projectRow
  rw [get, get, null, own]
  rfl

theorem projectRow_carries (declared : List Field) {document : Document}
    (carries : Carries row document) :
    ∃ holder, holder.entries? = some document ∧ ∀ names : List Value,
      projectRow declared (.ok names) row = decodeDocument declared holder names := by
  obtain ⟨entries, holder, holds, present, isMap⟩ := carries
  have get : row.get "doc" = .ok holder := by
    rw [Value.get, mapping, holds]
    exact congrArg (fun found => Except.ok (Value.ofOption found)) present
  have given : ¬ holder.isNull = true := by
    intro null
    rw [isNull_iff.1 null] at isMap
    cases isMap
  refine ⟨holder, isMap, fun names => ?_⟩
  unfold projectRow
  rw [get]
  exact if_neg given

theorem Carries.unique {document document' : Document} (carries : Carries row document)
    (carries' : Carries row document') : document = document' := by
  obtain ⟨entries, holder, holds, present, isMap⟩ := carries
  obtain ⟨entries', holder', holds', present', isMap'⟩ := carries'
  rw [holds] at holds'
  cases holds'
  rw [present] at present'
  cases present'
  exact Option.some.inj (isMap.symm.trans isMap')

theorem Carries.documented {document : Document} {entries : Entries}
    (carries : Carries row document) : ¬ Undocumented row entries := by
  rintro ⟨holds', missing⟩
  obtain ⟨entries, holder, holds, present, isMap⟩ := carries
  rw [holds] at holds'
  cases holds'
  rw [present] at missing
  rcases missing with missing | missing <;> cases missing
  cases isMap

variable (areNames : AreNames (declared.map Field.name))

include areNames

theorem not_blocked {document : Document} (carries : Carries row document)
    (gives : ∀ name ∈ names, ∃ value, Gives declared document name value) :
    ¬ Blocked declared names row := by
  intro blocked
  cases blocked with
  | undocumented entries lacks => exact carries.documented lacks
  | unloadable document' name field value carries' requested unloadable =>
      obtain rfl := carries.unique carries'
      obtain ⟨given, gives⟩ := gives name requested
      obtain ⟨failure, fails⟩ := unloadable.exists_failure
      have isMap : (Value.map document).entries? = some document := rfl
      have decoded := decodeField_gives areNames isMap gives
      rw [decodeField_unloadable areNames isMap unloadable fails] at decoded
      cases decoded

theorem projectRow_cases (isRow : IsRow row) (names : List String) :
    (∃ record, projectRow declared (.ok (names.map .str)) row = .ok record ∧
      Yields declared names row record ∧ ¬ Blocked declared names row) ∨
    ∃ failure, projectRow declared (.ok (names.map .str)) row = .error failure ∧
      Stops declared names row failure := by
  rcases isRow with ⟨document, carries⟩ | ⟨entries, lacks⟩
  · obtain ⟨holder, isMap, decodes⟩ := projectRow_carries declared carries
    by_cases all : ∀ name ∈ names, ∃ value, Gives declared document name value
    · obtain ⟨record, reads, decoded⟩ := decodeDocument_decoded areNames isMap all
      exact .inl ⟨record, (decodes _).trans reads, ⟨document, carries, decoded⟩,
        not_blocked areNames carries all⟩
    · classical
      -- The first name for which the document gives nothing.
      have first : (names.find? fun name =>
          decide ¬ ∃ value, Gives declared document name value).isSome = true := by
        simpa using all
      obtain ⟨name, first⟩ := Option.isSome_iff_exists.1 first
      obtain ⟨nothing, earlier, later, rfl, gives⟩ := List.find?_eq_some_iff_append.1 first
      have gives' : ∀ name ∈ earlier, ∃ value, Gives declared document name value :=
        fun name mem => by simpa using gives name mem
      obtain ⟨field, value, unloadable⟩ :=
        (gives_or_unloadable declared document name).resolve_left (of_decide_eq_true nothing)
      obtain ⟨failure, fails⟩ := unloadable.exists_failure
      exact .inr ⟨failure,
        (decodes _).trans (decodeDocument_unloadable areNames isMap gives' unloadable fails),
        .unloadable document earlier later name field value failure carries rfl gives' unloadable
          fails⟩
  · exact .inr ⟨_, projectRow_undocumented lacks _, .undocumented entries lacks⟩

end Rows

inductive Ends (declared : List Field) (names : List String) :
    List Value → Option Failure → Prop
  | finished : Ends declared names [] none
  | stopped (row : Value) (rest : List Value) (failure : Failure)
      (stops : Stops declared names row failure) :
      Ends declared names (row :: rest) (some failure)

theorem projectRows_yields {declared : List Field}
    (areNames : AreNames (declared.map Field.name)) (names : List String) {rows : List Value}
    (areRows : ∀ row ∈ rows, IsRow row) :
    ∃ before after records failure, rows = before ++ after ∧
      projectRows declared (.ok (names.map .str)) rows = (records, failure) ∧
      List.Forall₂ (Yields declared names) before records ∧
      (∀ row ∈ before, ¬ Blocked declared names row) ∧ Ends declared names after failure := by
  induction rows with
  | nil => exact ⟨[], [], [], none, rfl, rfl, .nil, nofun, .finished⟩
  | cons row rest ih =>
      obtain ⟨isRow, areRows⟩ := List.forall_mem_cons.1 areRows
      rw [projectRows]
      rcases projectRow_cases areNames isRow names with
        ⟨record, yields, isYield, fine⟩ | ⟨failure, fails, stops⟩
      · obtain ⟨before, after, records, failure, rfl, run, yielded, passed, ends⟩ := ih areRows
        rw [yields, run]
        exact ⟨row :: before, after, record :: records, failure, rfl, rfl,
          .cons isYield yielded, List.forall_mem_cons.2 ⟨fine, passed⟩, ends⟩
      · rw [fails]
        exact ⟨[], row :: rest, [], some failure, rfl, rfl, .nil, nofun,
          .stopped row rest failure stops⟩

theorem Ends.finished_iff {declared : List Field} {names : List String}
    {before after : List Value} {failure : Option Failure}
    (ends : Ends declared names after failure)
    (passed : ∀ row ∈ before, ¬ Blocked declared names row) :
    failure = none ↔ ∀ row ∈ before ++ after, ¬ Blocked declared names row := by
  cases ends with
  | finished => simpa using passed
  | stopped row rest failure stops =>
      refine iff_of_false nofun fun free => ?_
      exact free row (List.mem_append_right before List.mem_cons_self) stops.blocked

/-! ## Pulling a projection -/

inductive Event
  /-- The caller's list of names gets other contents. -/
  | edit (names : Value)
  /-- The next record is asked for. -/
  | pull

def Event.isPull : Event → Bool
  | .edit _ => false
  | .pull => true

/-- A projection under way, beside the caller's list of names.  It reads names for each row
anew, from the caller's list or from a copy of it. -/
structure Pulled where
  given : Value
  copy : Option Value
  rest : List Value
  records : List Entries
  /-- How the projection ended, if it did. -/
  ended : Option (Option Failure)

namespace Pulled

def names (state : Pulled) : Outcome (List Value) := (state.copy.getD state.given).items

def step (declared : List Field) (state : Pulled) : Event → Pulled
  | .edit names => { state with given := names }
  | .pull =>
      match state.ended, state.rest with
      | some _, _ => state
      | none, [] => { state with ended := some none }
      | none, row :: rest =>
          match projectRow declared state.names row with
          | .ok next => { state with rest := rest, records := state.records ++ [next] }
          | .error failure => { state with ended := some (some failure) }

def run (declared : List Field) (state : Pulled) (events : List Event) : Pulled :=
  events.foldl (step declared) state

theorem run_cons (declared : List Field) (state : Pulled) (event : Event) (later : List Event) :
    state.run declared (event :: later) = (state.step declared event).run declared later := rfl

def shared (fields : Value) (rows : List Value) : Pulled := ⟨fields, none, rows, [], none⟩

def bound (fields : Value) (rows : List Value) : Outcome Pulled := do
  return ⟨fields, some (.list (← fields.items)), rows, [], none⟩

def Steady (state : Pulled) (events : List Event) : Prop :=
  state.copy.isSome = true ∨ ∀ event ∈ events, event.isPull = true

variable {declared : List Field}

section Steps

variable {s : Pulled}

theorem step_ended {failure : Option Failure} (ended : s.ended = some failure) :
    s.step declared .pull = s := by
  simp only [step, ended]

theorem step_finishes (running : s.ended = none) (none_left : s.rest = []) :
    s.step declared .pull = { s with ended := some none } := by
  simp only [step, running, none_left]

variable {row : Value} {rows : List Value} (running : s.ended = none)
  (left : s.rest = row :: rows)

include running left

theorem step_yields {next : Entries} (yields : projectRow declared s.names row = .ok next) :
    s.step declared .pull =
      { s with rest := rows, records := s.records ++ [next] } := by
  simp only [step, running, left, yields]

theorem step_stops {failure : Failure}
    (fails : projectRow declared s.names row = .error failure) :
    s.step declared .pull = { s with ended := some (some failure) } := by
  simp only [step, running, left, fails]

end Steps

theorem run_ended {s : Pulled} {failure : Option Failure} (ended : s.ended = some failure)
    (events : List Event) :
    (s.run declared events).records = s.records ∧
      (s.run declared events).ended = some failure := by
  induction events generalizing s with
  | nil => exact ⟨rfl, ended⟩
  | cons event later ih =>
      rw [run_cons]
      cases event with
      | edit names => exact ih (s := { s with given := names }) ended
      | pull =>
          rw [step_ended ended]
          exact ih ended

theorem run_yields {s : Pulled} {events : List Event} (running : s.ended = none)
    (steady : s.Steady events) {records : List Entries} {failure : Option Failure}
    (answers : projectRows declared s.names s.rest = (records, failure)) :
    (s.run declared events).records =
        s.records ++ records.take (events.countP Event.isPull) ∧
      (s.run declared events).ended =
        if events.countP Event.isPull ≤ records.length then none else some failure := by
  induction events generalizing s records with
  | nil => exact ⟨(List.append_nil _).symm, running⟩
  | cons event later ih =>
      cases event with
      | edit names =>
          -- An edit comes only if the names have been copied, and then nobody reads it.
          have copied : s.copy.isSome = true :=
            steady.resolve_right fun pulls => nomatch pulls _ List.mem_cons_self
          obtain ⟨copy, hcopy⟩ := Option.isSome_iff_exists.1 copied
          refine ih (s := { s with given := names }) running (.inl copied) ?_
          rw [Pulled.names, hcopy] at answers ⊢
          exact answers
      | pull =>
          rw [List.countP_cons_of_pos rfl, run_cons]
          cases left : s.rest with
          | nil =>
              rw [left] at answers
              cases answers
              rw [step_finishes running left]
              simpa using run_ended (s := { s with ended := some none }) rfl later
          | cons row rows =>
              rw [left, projectRows] at answers
              cases decoded : projectRow declared s.names row with
              | ok next =>
                  obtain ⟨others, stop, rest⟩ :
                      ∃ others stop, projectRows declared s.names rows = (others, stop) :=
                    ⟨_, _, rfl⟩
                  rw [decoded, rest] at answers
                  cases answers
                  rw [step_yields running left decoded]
                  obtain ⟨yielded, ended⟩ := ih
                    (s := { s with rest := rows, records := s.records ++ [next] })
                    running (steady.imp_right fun pulls => (List.forall_mem_cons.1 pulls).2) rest
                  rw [yielded, ended]
                  simp
              | error stop =>
                  rw [decoded] at answers
                  cases answers
                  rw [step_stops running left decoded]
                  simpa using
                    run_ended (s := { s with ended := some (some stop) }) rfl later

end Pulled

section Answers

variable {entity : Option Entity} {fields rows : Value} {names : List String} {given : List Value}

/-- Pulling a projection of the caller's own list gives what `project` gives, if the list is left
alone meanwhile. -/
theorem shared_run (listed : rows.items? = some given) {events : List Event}
    (pulls : ∀ event ∈ events, event.isPull = true) :
    let answer := project entity fields rows
    let last := (Pulled.shared fields given).run (declaredFields entity) events
    last.records = answer.1.take events.length ∧
      last.ended = if events.length ≤ answer.1.length then none else some answer.2 := by
  have answers : project entity fields rows =
      projectRows (declaredFields entity) fields.items given := by
    rw [project, Value.items, listed]
    rfl
  have count : events.countP Event.isPull = events.length := List.countP_eq_length.2 pulls
  rw [answers, ← count]
  exact Pulled.run_yields (s := Pulled.shared fields given) rfl (.inr pulls) rfl

/-- **Projection.**  The rows up to the first blocked one yield their records, in order.  At the
blocked row the projection ends with the failure of that row; it ends without one exactly if no
row is blocked.  A projector gives the same records and the same end, whatever becomes of the list
that it was built from. -/
theorem project_yields (made : ∀ made ∈ entity, made.IsMade)
    (requested : fields.items? = some (names.map .str)) (listed : rows.items? = some given)
    (areRows : ∀ row ∈ given, IsRow row) :
    ∃ before after records failure, given = before ++ after ∧
      project entity fields rows = (records, failure) ∧
      List.Forall₂ (Yields (declaredFields entity) names) before records ∧
      (∀ row ∈ before, ¬ Blocked (declaredFields entity) names row) ∧
      Ends (declaredFields entity) names after failure ∧
      (failure = none ↔ ∀ row ∈ given, ¬ Blocked (declaredFields entity) names row) ∧
      boundProject entity fields rows = .ok (records, failure) ∧
      ∃ start, Pulled.bound fields given = .ok start ∧ ∀ events : List Event,
        let last := start.run (declaredFields entity) events
        let pulls := events.countP Event.isPull
        last.records = records.take pulls ∧
          last.ended = if pulls ≤ records.length then none else some failure := by
  have areNames : AreNames ((declaredFields entity).map Field.name) := by
    cases entity with
    | none => exact ⟨nofun, .nil⟩
    | some entity =>
        obtain ⟨_, _, _, _, _, made⟩ := made entity rfl
        exact Entity.make_names made
  have items : fields.items = .ok (names.map .str) := by
    rw [Value.items, requested]
    rfl
  have rowItems : rows.items = .ok given := by
    rw [Value.items, listed]
    rfl
  obtain ⟨before, after, records, failure, rfl, run, yielded, passed, ends⟩ :=
    projectRows_yields areNames names areRows
  have answer : project entity fields rows = (records, failure) := by
    unfold project
    rw [rowItems, items]
    exact run
  have bound : boundProject entity fields rows = .ok (records, failure) := by
    unfold boundProject
    rw [items, ← run]
    unfold project
    rw [rowItems]
    rfl
  refine ⟨before, after, records, failure, rfl, answer, yielded, passed, ends,
    ends.finished_iff passed, bound,
    ⟨fields, some (.list (names.map .str)), before ++ after, [], none⟩, ?_, fun events => ?_⟩
  · unfold Pulled.bound
    rw [items]
    rfl
  · exact Pulled.run_yields rfl (.inl rfl) run

end Answers

namespace Reviewed

open Reviews

def entity : Entity :=
  ⟨.str "Review", .str "reviews",
    [.plain idField .binaryId, { Field.plain revField .string with readAfterWrites := true }] ++
      Reviews.entity.fields, [⟨.str "Review", [Entity.everyDocument]⟩], .str ""⟩

def requested : List String := ["stats", "title", "stats"]

def rows : List Value :=
  [.ofFields [("id", .str "a"),
      ("doc", .ofFields [("stats", .ofFields [("visits", .int 3), ("clicks", .int 1)])])],
    .ofFields [("id", .str "b"), ("doc", .null)],
    .ofFields [("id", .str "c"), ("doc", .ofFields [("stats", .int 5)])]]

end Reviewed

open Reviewed in
/-- A record of two fields out of three that are requested, then the fault of the null document. -/
theorem project_yields_reviewed :
    (∀ made ∈ some entity, made.IsMade) ∧
      (Value.strings requested).items? = some (requested.map .str) ∧
      (Value.list rows).items? = some rows ∧ (∀ row ∈ rows, IsRow row) ∧
      ∃ records failure,
        project (some entity) (Value.strings requested) (.list rows) = (records, some failure) ∧
        boundProject (some entity) (Value.strings requested) (.list rows) =
          .ok (records, some failure) := by
  have made : ∀ made ∈ some entity, made.IsMade := by
    rintro _ mem
    obtain rfl := Option.mem_some_iff.1 mem
    exact ⟨.str "Review", .str "reviews", Reviews.entity.fields, [], .str "", rfl⟩
  have documented : ∀ id document,
      IsRow (.ofFields [("id", .str id), ("doc", .ofFields document)]) :=
    fun id document => .inl ⟨_, _, _, rfl, rfl, rfl⟩
  have lacking : Undocumented (.ofFields [("id", .str "b"), ("doc", .null)])
      [(.str "id", .str "b"), (.str "doc", .null)] := ⟨rfl, .inr rfl⟩
  have areRows : ∀ row ∈ rows, IsRow row := by
    simp only [rows, List.forall_mem_cons]
    exact ⟨documented .., .inr ⟨_, lacking⟩, documented .., List.forall_mem_nil _⟩
  have names : (Value.strings requested).items? = some (requested.map .str) := rfl
  have listed : (Value.list rows).items? = some rows := rfl
  obtain ⟨before, after, records, failure, split, answer, -, -, -, finished, bound, -⟩ :=
    project_yields made names listed areRows
  refine ⟨made, names, listed, areRows, ?_⟩
  cases failure with
  | some failure => exact ⟨records, failure, answer, bound⟩
  | none =>
      have second : Value.ofFields [("id", .str "b"), ("doc", .null)] ∈ rows := by simp [rows]
      exact absurd (.undocumented _ lacking) (finished.1 rfl _ second)

end Projection

end DocMapper
