import DocMapper.Proofs.Schema.Exported
import DocMapper.Proofs.Schema.Form
import DocMapper.Proofs.Schema.Normal

/-!
# Reports on malformed schemas

A schema whose parts have the forms that they should have either yields one entity for each
entry, in order, or is reported as malformed.  The one exception are embedded schemas: what a
declaration itself refuses of them is not reported but escapes as it is.
-/

namespace DocMapper

open Value
open Outcome (Ends)

def Failure.IsReport (failure : Failure) : Prop := ∃ message, failure = .badSchema message

def Failure.IsRefusal (failure : Failure) : Prop := ∃ message, failure = .badValue message

/-- How a step fails: with the refusal of a declaration if it escapes, else with a report. -/
def Failure.Tells (escapes : Prop) (failure : Failure) : Prop :=
  escapes ∧ failure.IsRefusal ∨ ¬ escapes ∧ failure.IsReport

namespace Failure.Tells

variable {p q : Prop} {failure : Failure}

theorem congr (iff : p ↔ q) (tells : failure.Tells p) : failure.Tells q := by
  rwa [Failure.Tells, ← iff]

theorem known (tells : failure.Tells p) : failure.IsRefusal ∨ failure.IsReport :=
  tells.imp And.right And.right

end Failure.Tells

theorem refuseIf_ends (condition : Bool) (error : DeclarationError) :
    Ends (fun _ => condition = false) (fun f => condition = true ∧ f.IsRefusal)
      (refuseIf condition error) := by
  cases condition with
  | false => exact rfl
  | true => exact ⟨rfl, _, rfl⟩

theorem refuseRepeated_ends {names : List Value} (texts : ∀ name ∈ names, name.isText = true)
    (error : DeclarationError) :
    Ends (fun _ => names.Nodup) (fun f => ¬ names.Nodup ∧ f.IsRefusal)
      (refuseRepeated names error) := by
  by_cases apart : names.Nodup
  · rw [refuseRepeated_of_names (areNames_of_texts texts apart)]
    exact apart
  · have hashable : names.all Value.hashable = true := List.all_eq_true.2 fun name mem =>
      MaybeText.hashable (.inr (texts name mem))
    unfold refuseRepeated
    rw [hashable]
    change Ends _ _ (refuseIf _ error)
    refine (refuseIf_ends _ error).imp (fun _ distinct => ?_) fun f refused => ⟨apart, refused.2⟩
    rw [← (distinctKeys_sublist names).eq_of_length (bne_eq_false_iff_eq.1 distinct)]
    exact AreNames.nodup ⟨fun name mem => MaybeText.hashable
      (.inr (texts name ((distinctKeys_sublist names).subset mem))), distinctKeys_pairwise names⟩

theorem refuseIf_refusal (condition : Bool) (error : DeclarationError) :
    Ends (fun _ => condition = false) Failure.IsRefusal (refuseIf condition error) :=
  (refuseIf_ends condition error).fails fun _ => And.right

theorem refuseRepeated_refusal {names : List Value} (texts : ∀ name ∈ names, name.isText = true)
    (error : DeclarationError) :
    Ends (fun _ => names.Nodup) Failure.IsRefusal (refuseRepeated names error) :=
  (refuseRepeated_ends texts error).fails fun _ => And.right

theorem Field.make_ends (name : Value) (kind : Kind) (required : Bool) (default : Value)
    {embed : Option Embedded} (given : embed.isSome = kind.embeds) (readAfterWrites : Bool)
    (description : Value) :
    Ends (fun field => field.name = name ∧ name.truthy = true)
      (fun f => name.truthy = false ∧ f.IsRefusal)
      (Field.make name kind required default embed readAfterWrites description) := by
  have missing : (kind.embeds && embed.isNone) = false := by
    rw [← given]
    cases embed <;> rfl
  have unexpected : (embed.isSome && !kind.embeds) = false := by
    rw [given]
    cases kind.embeds <;> rfl
  rw [Field.make, missing, unexpected]
  refine ((refuseIf_ends _ _).fails fun f refused => ?_).bind fun _ named => ?_
  · exact ⟨by simpa using refused.1, refused.2⟩
  · exact ⟨rfl, by simpa using named⟩

theorem Embedded.make_ends (name : Value) {fields : List Field}
    (texts : ∀ field ∈ fields, field.name.isText = true) (recordType : Option RecordType) :
    Ends (fun _ => name.truthy = true ∧ (fields.map Field.name).Nodup)
      (fun f => ¬ (name.truthy = true ∧ (fields.map Field.name).Nodup) ∧ f.IsRefusal)
      (Embedded.make name fields recordType) := by
  refine ((refuseIf_ends _ _).fails fun f refused => ?_).bind fun _ named => ?_
  · refine ⟨fun sound => ?_, refused.2⟩
    simp [sound.1] at refused
  refine ((refuseRepeated_ends (by simpa using texts) _).fails
    fun f refused => ⟨fun sound => refused.1 sound.2, refused.2⟩).bind fun _ apart => ?_
  exact ⟨by simpa using named, apart⟩

theorem View.make_ends (name : Value) (keyTypes : List Value) :
    Ends (fun view => view.name = name ∧ name.truthy = true) Failure.IsRefusal
      (View.make name keyTypes) := by
  refine (refuseIf_refusal _ _).bind fun _ named => ?_
  refine (refuseIf_refusal _ _).bind fun _ _ => ?_
  exact ⟨rfl, by simpa using named⟩

theorem Design.make_ends (name : Value) {views : List View}
    (texts : ∀ view ∈ views, view.name.isText = true) :
    Ends (fun design => design.name = name ∧ name.truthy = true) Failure.IsRefusal
      (Design.make name views) := by
  refine (refuseIf_refusal _ _).bind fun _ named => ?_
  refine (refuseRepeated_refusal (by simpa using texts) _).bind fun _ _ => ?_
  exact ⟨rfl, by simpa using named⟩

theorem Entity.make_ends (name source description : Value) {fields : List Field}
    {designs : List Design} (fieldTexts : ∀ field ∈ fields, field.name.isText = true)
    (designTexts : ∀ design ∈ designs, design.name.isText = true) :
    Ends (fun entity => Entity.make name source fields designs description = .ok entity)
      Failure.IsRefusal (Entity.make name source fields designs description) := by
  refine (Ends.self (P := fun _ => True) ?_).imp (fun _ => And.right) fun _ => id
  refine (refuseIf_refusal _ _).bind fun _ _ => ?_
  refine (refuseIf_refusal _ _).bind fun _ _ => ?_
  refine (refuseRepeated_refusal (by simpa using fieldTexts) _).bind fun _ _ => ?_
  refine (refuseRepeated_refusal (by simpa using designTexts) _).bind fun _ _ => ?_
  exact trivial

theorem Kind.ofValue_ends {given : Value} (text : given.MaybeText) :
    Ends (fun kind => given = .str kind.name)
      (fun f => (∀ kind : Kind, given ≠ .str kind.name) ∧ f.IsRefusal) (Kind.ofValue given) := by
  have named : ∀ kind : Kind, (Value.str kind.name).same given = true ↔ given = .str kind.name :=
    fun kind => same_text kind.name text.isJson
  unfold Kind.ofValue
  cases found : Kind.every.find? fun kind => (Value.str kind.name).same given with
  | some kind =>
      have same := List.find?_some found
      exact (named kind).1 same
  | none =>
      refine ⟨fun kind same => ?_, _, rfl⟩
      exact List.find?_eq_none.1 found kind (Kind.mem_every kind) ((named kind).2 same)

theorem loadKind_ends (owner : Value) {raw : Value} (shaped : raw.FieldShaped) :
    Ends (fun kind => raw.under "kind" = .str kind.name)
      (fun f => (∀ kind : Kind, raw.under "kind" ≠ .str kind.name) ∧ f.IsReport)
      (loadKind owner raw) := by
  refine (getOr_ends shaped.mapping "kind" (.str "")).bind fun given origin => ?_
  have place : ∃ place, fieldPlace owner raw = .ok place := by
    rw [fieldPlace, get_mapping shaped.mapping]
    exact ⟨_, rfl⟩
  obtain ⟨place, placed⟩ := place
  have text : given.MaybeText := by
    rcases origin with rfl | ⟨rfl, -⟩
    · exact shaped.kind
    · exact .inr rfl
  have named : ∀ kind : Kind, given = .str kind.name ↔ raw.under "kind" = .str kind.name := by
    intro kind
    rcases origin with rfl | ⟨rfl, null⟩
    · exact Iff.rfl
    · rw [null]
      cases kind <;> simp [Kind.name]
  have ends := Kind.ofValue_ends text
  cases outcome : Kind.ofValue given with
  | ok kind =>
      rw [outcome] at ends
      exact (named kind).1 ends
  | error f =>
      rw [outcome] at ends
      obtain ⟨unknown, message, rfl⟩ := ends
      rw [placed]
      exact ⟨fun kind => mt (named kind).2 (unknown kind), _, rfl⟩

theorem find?_table {table : EmbeddedTable} (texts : ∀ e ∈ table, e.1.isText = true)
    {name : Value} (text : name.MaybeText) :
    (table.find? name).isSome = true ↔ name ∈ table.map Prod.fst := by
  rw [EmbeddedTable.find?, Option.isSome_map, List.find?_isSome, List.mem_map]
  refine exists_congr fun e => and_congr_right fun mem => ?_
  obtain ⟨s, named⟩ := isText_iff.1 (texts e mem)
  rw [named, sameKey_text_left]
  rcases text with rfl | text
  · simp [referent]
  · obtain ⟨t, rfl⟩ := isText_iff.1 text
    simp [referent, eq_comm]

section Table

variable {table : EmbeddedTable} (texts : ∀ e ∈ table, e.1.isText = true)

include texts

theorem loadEmbed_ends (owner : Value) {raw : Value} (shaped : raw.FieldShaped) :
    Ends (fun _ => raw.under "embed" ∈ table.map Prod.fst)
      (fun f => raw.under "embed" ∉ table.map Prod.fst ∧ f.IsReport)
      (loadEmbed table owner raw) := by
  have known := find?_table texts shaped.embed
  have hashable : (raw.under "embed").requireHashable = .ok () :=
    if_pos shaped.embed.hashable
  rw [loadEmbed, get_mapping shaped.mapping]
  refine Ends.bind (P := fun name => name = raw.under "embed") rfl fun name same => ?_
  rw [same, hashable]
  cases found : table.find? (raw.under "embed") with
  | some embedded =>
      rw [found] at known
      exact known.1 rfl
  | none =>
      rw [found] at known
      rw [fieldPlace, get_mapping shaped.mapping]
      exact ⟨fun mem => (Bool.false_ne_true (known.2 mem)).elim, _, rfl⟩

theorem loadField_ends (owner : Value) {raw : Value} (shaped : raw.FieldShaped) :
    Ends (fun field => raw.IsReadable (table.map Prod.fst) ∧ raw.IsNamed ∧
        field.name = raw.under "name")
      (fun f => raw.IsReadable (table.map Prod.fst) ∧ ¬ raw.IsNamed ∧ f.IsRefusal ∨
        ¬ raw.IsReadable (table.map Prod.fst) ∧ f.IsReport)
      (loadField table owner raw) := by
  refine ((loadKind_ends owner shaped).fails fun f => ?_).bind fun kind named => ?_
  · rintro ⟨unknown, report⟩
    refine .inr ⟨?_, report⟩
    rintro ⟨kind, named, -⟩
    exact unknown kind named
  have built : ∀ embed : Option Embedded, embed.isSome = kind.embeds →
      raw.IsReadable (table.map Prod.fst) → Ends
        (fun field => raw.IsReadable (table.map Prod.fst) ∧ raw.IsNamed ∧
          field.name = raw.under "name")
        (fun f => raw.IsReadable (table.map Prod.fst) ∧ ¬ raw.IsNamed ∧ f.IsRefusal ∨
          ¬ raw.IsReadable (table.map Prod.fst) ∧ f.IsReport)
        (do Field.make (← raw.getOr "name" (.str "")) kind
              (← raw.getOr "required" (.bool false)).truthy (← raw.get "default") embed
              (← raw.getOr "read_after_writes" (.bool false)).truthy
              (← raw.getOr "description" (.str ""))) := by
    intro embed given readable
    refine (getOr_ends shaped.mapping _ _).bind fun name origin => ?_
    refine (getOr_ends shaped.mapping _ _).bind fun required _ => ?_
    rw [get_mapping shaped.mapping]
    refine (getOr_ends shaped.mapping _ _).bind fun readAfterWrites _ => ?_
    refine (getOr_ends shaped.mapping _ _).bind fun description _ => ?_
    obtain ⟨truthy, same⟩ := truthy_under origin
    refine (Field.make_ends name kind required.truthy _ given readAfterWrites.truthy
      description).imp ?_ ?_
    · rintro field ⟨rfl, given⟩
      exact ⟨readable, truthy.2 given, same (truthy.2 given)⟩
    · rintro f ⟨falsy, refusal⟩
      exact .inl ⟨readable, by simp [IsNamed, truthy, falsy], refusal⟩
  cases embeds : kind.embeds with
  | false => exact built none embeds.symm ⟨kind, named, by simp [embeds]⟩
  | true =>
      refine Ends.bind (Ends.map (Q := fun embed => embed.isSome = kind.embeds ∧
          raw.IsReadable (table.map Prod.fst)) ((loadEmbed_ends texts owner shaped).imp ?_ ?_))
        fun embed given => built embed given.1 given.2
      · exact fun _ known => ⟨embeds.symm, kind, named, fun _ => known⟩
      · rintro f ⟨unknown, report⟩
        refine .inr ⟨?_, report⟩
        rintro ⟨other, again, known⟩
        obtain rfl := Kind.name_injective _ _ (Value.str.inj (named.symm.trans again))
        exact unknown (known embeds)

theorem loadFields_ends (owner : Value) {raw : Value} (mapping : raw.entries?.isSome = true)
    (listed : (raw.under "fields").MaybeList FieldShaped) :
    Ends (fun fields => AreSound (table.map Prod.fst) (raw.parts "fields") ∧
        (∀ field ∈ fields, field.name.isText = true) ∧
        fields.map Field.name = (raw.parts "fields").map fun field => field.under "name")
      (fun f => ¬ AreSound (table.map Prod.fst) (raw.parts "fields") ∧
        f.Tells (NamelessFirst (table.map Prod.fst) (raw.parts "fields")))
      (loadFields table owner raw) := by
  obtain ⟨read, shaped⟩ := partItems_mapping mapping "fields" listed
  rw [loadFields, read]
  change Ends _ _ ((raw.parts "fields").mapM (loadField table owner))
  generalize raw.parts "fields" = items at shaped
  induction items with
  | nil => exact And.intro (List.forall_mem_nil _) ⟨List.forall_mem_nil _, rfl⟩
  | cons item rest ih =>
      obtain ⟨first, others⟩ := List.forall_mem_cons.1 shaped
      rw [List.mapM_cons]
      refine ((loadField_ends texts owner first).fails ?_).bind ?_
      · rintro f (⟨readable, nameless, refusal⟩ | ⟨unreadable, report⟩)
        · exact ⟨fun sound => nameless (sound item (.head _)).2,
            .inl ⟨⟨readable, fun named => absurd named nameless⟩, refusal⟩⟩
        · exact ⟨fun sound => unreadable (sound item (.head _)).1,
            .inr ⟨fun nameless => unreadable nameless.1, report⟩⟩
      · rintro field ⟨readable, named, same⟩
        refine ((ih others).fails ?_).bind ?_
        · rintro f ⟨unsound, tells⟩
          refine ⟨fun sound => unsound (List.forall_mem_cons.1 sound).2, tells.congr ?_⟩
          exact ⟨fun nameless => ⟨readable, fun _ => nameless⟩, fun nameless => nameless.2 named⟩
        · rintro fields ⟨sound, texts, names⟩
          have text : field.name.isText = true := same ▸ first.name.isText named
          exact ⟨List.forall_mem_cons.2 ⟨⟨readable, named⟩, sound⟩,
            List.forall_mem_cons.2 ⟨text, texts⟩, congrArg₂ _ same names⟩

theorem loadEmbedded_ends {raw : Value} (shaped : raw.EmbeddedShaped) :
    Ends (fun grown => raw.IsSound (table.map Prod.fst) ∧
        ∃ embedded, grown = (raw.under "name", embedded) :: table)
      (fun f => ¬ raw.IsSound (table.map Prod.fst) ∧ f.Tells (raw.Escapes (table.map Prod.fst)))
      (loadEmbedded table raw) := by
  rw [loadEmbedded, get_mapping shaped.mapping]
  refine ((loadFields_ends texts _ shaped.mapping shaped.fields).fails ?_).bind ?_
  · rintro f ⟨unsound, tells⟩
    refine ⟨fun sound => unsound sound.fields, tells.congr ?_⟩
    exact ⟨.inl, fun escapes => escapes.resolve_right fun later => unsound later.1⟩
  · rintro fields ⟨sound, fieldTexts, names⟩
    refine ((Embedded.make_ends _ fieldTexts none).fails ?_).bind ?_
    · rintro f ⟨refused, refusal⟩
      rw [names] at refused
      have unsound : ¬ raw.IsSound (table.map Prod.fst) := fun sound =>
        refused ⟨sound.named, sound.apart⟩
      exact ⟨unsound, .inl ⟨.inr ⟨sound, unsound⟩, refusal⟩⟩
    · rintro embedded ⟨named, apart⟩
      have hashable : (raw.under "name").requireHashable = .ok () := if_pos shaped.name.hashable
      rw [hashable]
      exact ⟨⟨sound, named, names ▸ apart⟩, embedded, rfl⟩

theorem loadEmbeddeds_ends {items : List Value} (shaped : ∀ raw ∈ items, raw.EmbeddedShaped) :
    Ends (fun grown => ¬ FirstEscapes (table.map Prod.fst) items ∧
        ∀ e ∈ grown, e.1.isText = true)
      (fun f => f.Tells (FirstEscapes (table.map Prod.fst) items))
      (items.foldlM loadEmbedded table) := by
  induction items generalizing table with
  | nil => exact And.intro id texts
  | cons raw rest ih =>
      obtain ⟨first, others⟩ := List.forall_mem_cons.1 shaped
      rw [List.foldlM_cons]
      refine ((loadEmbedded_ends texts first).fails ?_).bind ?_
      · rintro f ⟨unsound, tells⟩
        exact tells.congr ⟨.inl, fun escapes => escapes.resolve_right fun later => unsound later.1⟩
      · rintro grown ⟨sound, embedded, rfl⟩
        have grownTexts : ∀ e ∈ (raw.under "name", embedded) :: table, e.1.isText = true :=
          List.forall_mem_cons.2 ⟨first.name.isText sound.named, texts⟩
        have later : FirstEscapes (table.map Prod.fst) (raw :: rest) ↔
            FirstEscapes (raw.under "name" :: table.map Prod.fst) rest :=
          ⟨fun escapes => (escapes.resolve_left fun now => now.not_sound sound).2,
            fun escapes => .inr ⟨sound, escapes⟩⟩
        rw [later]
        exact ih grownTexts others

end Table

/-! ## Entities -/

theorem loadView_ends {raw : Value} (shaped : raw.ViewShaped) :
    Ends (fun view => view.name.isText = true) Failure.IsRefusal (loadView raw) := by
  refine (getOr_ends shaped.mapping _ _).bind fun name origin => ?_
  rw [(partItems_mapping shaped.mapping "key_types" shaped.keyTypes).1]
  obtain ⟨truthy, same⟩ := truthy_under origin
  refine (View.make_ends name (raw.parts "key_types")).imp ?_ fun _ => id
  rintro view ⟨rfl, given⟩
  exact same (truthy.2 given) ▸ shaped.name.isText (truthy.2 given)

theorem loadDesign_ends {raw : Value} (shaped : raw.DesignShaped) :
    Ends (fun design => design.name = raw.under "name" ∧ design.name.isText = true)
      Failure.IsRefusal (loadDesign raw) := by
  obtain ⟨read, each⟩ := partItems_mapping shaped.mapping "views" shaped.views
  rw [loadDesign, read]
  refine (Ends.mapM fun view mem => loadView_ends (each view mem)).bind fun views made => ?_
  refine (getOr_ends shaped.mapping _ _).bind fun name origin => ?_
  obtain ⟨truthy, same⟩ := truthy_under origin
  have texts : ∀ view ∈ views, view.name.isText = true := fun _ mem =>
    (exists_of_mem_right made mem).elim fun _ found => found.2
  refine (Design.make_ends name texts).imp ?_ fun _ => id
  rintro design ⟨rfl, given⟩
  have named := truthy.2 given
  exact ⟨same named, same named ▸ shaped.name.isText named⟩

theorem insideEntity_ends {α : Type} {P : α → Prop} {outcome : Outcome α}
    (ends : Ends P (fun f => f.IsRefusal ∨ f.IsReport) outcome) (name : Value) :
    Ends P Failure.IsReport (insideEntity name outcome) := by
  cases outcome with
  | ok a => exact ends
  | error f => rcases ends with ⟨message, rfl⟩ | ⟨message, rfl⟩ <;> exact ⟨_, rfl⟩

theorem prefix_withDefaultDesign (name : Value) (designs : List Design) :
    designs.map Design.name <+: (Entity.withDefaultDesign name designs).map Design.name := by
  induction designs with
  | nil => exact List.nil_prefix
  | cons design rest ih =>
      rw [Entity.withDefaultDesign]
      split
      · split
        · exact List.prefix_rfl
        · exact List.prefix_rfl
      · exact List.cons_prefix_cons.2 ⟨rfl, ih⟩

structure Entity.Declared (raw : Value) (entity : Entity) : Prop where
  name : entity.name = raw.under "name"
  source : entity.source = raw.under "source"
  fields : ((raw.parts "fields").map fun field => field.under "name") <:+ entity.fieldNames
  designs : ((raw.parts "designs").map fun design => design.under "name") <+: entity.designNames

theorem loadEntity_ends {table : EmbeddedTable} (texts : ∀ e ∈ table, e.1.isText = true)
    {raw : Value} (shaped : raw.EntityShaped) :
    Ends (Entity.Declared raw) Failure.IsReport (loadEntity table raw) := by
  obtain ⟨read, each⟩ := partItems_mapping shaped.mapping "designs" shaped.designs
  rw [loadEntity, get_mapping shaped.mapping]
  refine insideEntity_ends ?_ _
  refine (getOr_ends shaped.mapping _ _).bind fun source origin => ?_
  refine ((loadFields_ends texts _ shaped.mapping shaped.fields).fails
    fun f failed => failed.2.known).bind ?_
  rintro fields ⟨-, fieldTexts, fieldNames⟩
  rw [read]
  refine ((Ends.mapM fun design mem => loadDesign_ends (each design mem)).fails
    fun _ => .inl).bind fun designs made => ?_
  refine (getOr_ends shaped.mapping _ _).bind fun description _ => ?_
  have designTexts : ∀ design ∈ designs, design.name.isText = true :=
    fun _ mem => (exists_of_mem_right made mem).elim fun _ found => found.2.2
  have designNames : (raw.parts "designs").map (fun design => design.under "name") =
      designs.map Design.name := by
    rw [← List.forall₂_eq_eq_eq, List.forall₂_map_left_iff, List.forall₂_map_right_iff]
    exact made.imp fun _ _ design => design.1.symm
  refine (Entity.make_ends _ _ _ fieldTexts designTexts).imp (fun entity built => ?_)
    fun _ => .inl
  obtain ⟨-, sourced, -, -, rfl⟩ := Entity.make_eq_ok.1 built
  obtain ⟨truthy, same⟩ := truthy_under origin
  exact {
    name := rfl
    source := same (truthy.2 sourced)
    fields := by
      rw [← fieldNames, Entity.fieldNames, List.map_append]
      exact List.suffix_append _ _
    designs := designNames ▸ prefix_withDefaultDesign _ designs }

theorem loadSchema_ends {data : Value} (shaped : data.SchemaShaped) :
    Ends (fun entities => ¬ data.SchemaEscapes ∧
        List.Forall₂ Entity.Declared (data.parts "entities") entities)
      (Failure.Tells data.SchemaEscapes) (loadSchema data) := by
  unfold loadSchema
  split
  next entries =>
    obtain ⟨read, each⟩ := partItems_mapping shaped.mapping "embedded" shaped.embedded
    have escapes : FirstEscapes [] ((Value.map entries).parts "embedded") ↔
        (Value.map entries).SchemaEscapes := ⟨fun first => ⟨⟨_, rfl⟩, first⟩, And.right⟩
    have none : ∀ e ∈ ([] : EmbeddedTable), e.1.isText = true :=
      List.forall_mem_nil _
    rw [read]
    refine ((loadEmbeddeds_ends none each).fails
      fun f tells => tells.congr escapes).bind ?_
    rintro table ⟨sound, texts⟩
    obtain ⟨read, each⟩ := partItems_mapping shaped.mapping "entities" shaped.entities
    rw [read]
    exact (Ends.mapM fun raw mem => loadEntity_ends texts (each raw mem)).imp
      (fun entities declared => ⟨mt escapes.2 sound, declared⟩)
      fun f report => .inr ⟨mt escapes.2 sound, report⟩
  next other => exact .inr ⟨fun escapes => escapes.1.elim other, _, rfl⟩

/-- A schema whose parts have the forms that they should have is loaded, with one entity for
each entry, in order, or reported as malformed, unless the first malformed one of its embedded
schemas escapes: then the refusal of a declaration is not reported but raised as it is. -/
theorem loadSchema_reports_iff {data : Value} (shaped : data.SchemaShaped) :
    (((∃ entities, loadSchema data = .ok entities ∧
          List.Forall₂ Entity.Declared (data.parts "entities") entities) ∨
        ∃ message, loadSchema data = .error (.badSchema message)) ↔ ¬ data.SchemaEscapes) ∧
      (data.SchemaEscapes → ∃ message, loadSchema data = .error (.badValue message)) := by
  have ends := loadSchema_ends shaped
  cases outcome : loadSchema data with
  | ok entities =>
      rw [outcome] at ends
      obtain ⟨sound, declared⟩ := ends
      exact ⟨iff_of_true (.inl ⟨_, rfl, declared⟩) sound, fun escapes => absurd escapes sound⟩
  | error f =>
      rw [outcome] at ends
      rcases ends with ⟨escapes, message, rfl⟩ | ⟨sound, message, rfl⟩
      · refine ⟨iff_of_false ?_ (not_not.2 escapes), fun _ => ⟨_, rfl⟩⟩
        rintro (⟨_, ⟨⟩, -⟩ | ⟨_, ⟨⟩⟩)
      · exact ⟨iff_of_true (.inr ⟨_, rfl⟩) sound, fun escapes => absurd escapes sound⟩

namespace Grants

def userField : Value := .ofFields [("name", .str "user"), ("kind", .str "string")]

def schema (fields : List Value) : Value :=
  .ofFields [("embedded", .list [.ofFields [("name", .str "Grant"), ("fields", .list fields)]]),
    ("entities", .list [.ofFields [("name", .str "Post"), ("source", .str "posts"),
      ("fields", .list [.ofFields [("name", .str "grants"), ("kind", .str "embeds_many"),
        ("embed", .str "Grant")]])]])]

theorem userField_shaped : userField.FieldShaped :=
  ⟨rfl, .inr rfl, .inr rfl, .inl rfl⟩

theorem schema_shaped {fields : List Value} (shaped : ∀ field ∈ fields, field.FieldShaped) :
    (schema fields).SchemaShaped where
  mapping := rfl
  embedded := .inr ⟨_, rfl, List.forall_mem_singleton.2 ⟨rfl, .inr rfl, .inr ⟨_, rfl, shaped⟩⟩⟩
  entities := .inr ⟨_, rfl, List.forall_mem_singleton.2
    ⟨⟨rfl, .inr rfl, .inr ⟨_, rfl, List.forall_mem_singleton.2
      ⟨rfl, .inr rfl, .inr rfl, .inr rfl⟩⟩⟩, .inr rfl, .inl rfl⟩⟩

end Grants

open Grants in
theorem loadSchema_reports_grant :
    (schema [userField]).SchemaShaped ∧ ¬ (schema [userField]).SchemaEscapes ∧
      ∃ entities, loadSchema (schema [userField]) = .ok entities ∧
        List.Forall₂ Entity.Declared ((schema [userField]).parts "entities") entities := by
  have shaped := schema_shaped (List.forall_mem_singleton.2 userField_shaped)
  have sound :
      Value.IsSound [] (.ofFields [("name", .str "Grant"), ("fields", .list [userField])]) :=
    ⟨List.forall_mem_singleton.2
      ⟨⟨.string, rfl, fun embeds => absurd embeds Bool.false_ne_true⟩, rfl⟩,
      rfl, List.nodup_singleton _⟩
  have reported : ¬ (schema [userField]).SchemaEscapes := by
    rintro ⟨-, escapes | ⟨-, none⟩⟩
    · exact escapes.not_sound sound
    · exact none
  refine ⟨shaped, reported, ((loadSchema_reports_iff shaped).1.2 reported).resolve_right ?_⟩
  rintro ⟨message, failed⟩
  have loads : (loadSchema (schema [userField])).toBool = true := by decide +kernel
  rw [failed] at loads
  cases loads

open Grants in
/-- An embedded schema with two fields of one name is refused without a report. -/
theorem loadSchema_escapes_twins :
    (schema [userField, userField]).SchemaShaped ∧
      loadSchema (schema [userField, userField]) =
        .error (.badValue "Duplicate field name in embedded schema 'Grant'") := by
  refine ⟨schema_shaped (List.forall_mem_cons.2
    ⟨userField_shaped, List.forall_mem_singleton.2 userField_shaped⟩), ?_⟩
  rfl

end DocMapper
