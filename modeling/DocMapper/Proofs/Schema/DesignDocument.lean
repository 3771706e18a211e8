import DocMapper.Proofs.Schema.Normal
import DocMapper.Repository.Write

/-!
# Documents of designs

The document of a design holds the source of every view that is declared in it.  It cannot be
built if one of them has no source, and then the first such view is named.
-/

namespace DocMapper

open Value

inductive Lists (maps design : Value) : Entries → Prop
  | nothing (empty : maps.truthy = false) : Lists maps design []
  | unlisted {entries : Entries} (mapping : maps.entries? = some entries)
      (absent : (ofOption (entries.find? design)).truthy = false) : Lists maps design []
  | listed {entries sources : Entries} (mapping : maps.entries? = some entries)
      (present : (ofOption (entries.find? design)).truthy = true)
      (read : (ofOption (entries.find? design)).asEntries = .ok sources) :
      Lists maps design sources

def Design.id (design : Design) : String := designPrefix ++ design.name.text

namespace Entity

def completed (entity : Entity) (design : Design) (sources : Entries) : Entries :=
  if design.name.same entity.defaultDesign && !sources.has (.str allView) then
    sources.set (.str allView) (.str defaultAllMap)
  else sources

def sourceOf (entity : Entity) (design : Design) (sources : Entries) (view : View) : Value :=
  ofOption ((entity.completed design sources).find? view.name)

/-- A view that is given no source, other than that of all documents in the default design. -/
def Lacks (entity : Entity) (design : Design) (sources : Entries) (view : View) : Prop :=
  ofOption (sources.find? view.name) = .null ∧
    ¬ (design.name = entity.name ∧ view.name = .str allView ∧
      sources.find? (.str allView) = none)

def missingSource (entity : Entity) (design : Design) (view : View) : Failure :=
  .badValue ("No map source for view '" ++ design.name.text ++ "/" ++ view.name.text ++ "' of " ++
    entity.name.text)

def designFields (entity : Entity) (sources : Entries) (design : Design) : Entries :=
  [(.str idField, .str design.id), (.str "language", .str "javascript"),
    (.str "views", .map (design.views.map fun view =>
      (view.name, .ofFields [("map", entity.sourceOf design sources view)])))]

end Entity

section Sources

theorem Value.requireHashable_of_text {key : Value} (text : key.isText = true) :
    key.requireHashable = .ok () := by
  obtain ⟨s, rfl⟩ := isText_iff.1 text
  rfl

variable {maps : Value} {entity : Entity} {design : Design} {sources : Entries}

theorem Lists.mapSources_eq (lists : Lists maps design.name sources)
    (text : design.name.isText = true) :
    ∃ given, Session.sourcesOf maps design.name = .ok given ∧
      mapSources entity given design.name = .ok (entity.completed design sources) := by
  have looked {entries : Entries} (mapping : maps.entries? = some entries)
      (full : maps.truthy = true) :
      Session.sourcesOf maps design.name = .ok (ofOption (entries.find? design.name)) := by
    rw [Session.sourcesOf, if_pos full, getKey, Value.mapping, mapping,
      requireHashable_of_text text]
    rfl
  have of_empty {given : Value} (empty : given.truthy = false) :
      mapSources entity given design.name = .ok (entity.completed design []) := by
    rw [mapSources, empty, Entity.completed]
    simp only [apply_ite (Except.ok (ε := Failure))]
    rfl
  cases lists with
  | nothing empty =>
      refine ⟨.null, ?_, of_empty rfl⟩
      rw [Session.sourcesOf, empty]
      rfl
  | @unlisted entries mapping absent =>
      cases full : maps.truthy with
      | true => exact ⟨_, looked mapping full, of_empty absent⟩
      | false =>
          refine ⟨.null, ?_, of_empty rfl⟩
          rw [Session.sourcesOf, full]
          rfl
  | @listed entries sources mapping present read =>
      have full : maps.truthy = true := by
        cases maps <;> cases mapping
        all_goals
          cases entries with
          | nil => cases present
          | cons => rfl
      refine ⟨_, looked mapping full, ?_⟩
      rw [mapSources, if_pos present, read, Entity.completed]
      simp only [apply_ite (Except.ok (ε := Failure))]
      rfl

variable (names : entity.TextNames) (declared : design ∈ entity.designs) {view : View}
  (viewed : view ∈ design.views)

include names declared viewed

theorem sourceOf_cases :
    (design.name = entity.name ∧ view.name = .str allView ∧
        sources.find? (.str allView) = none) ∧
      entity.sourceOf design sources view = .str defaultAllMap ∨
    ¬ (design.name = entity.name ∧ view.name = .str allView ∧
        sources.find? (.str allView) = none) ∧
      entity.sourceOf design sources view = ofOption (sources.find? view.name) := by
  obtain ⟨e, entityName⟩ := isText_iff.1 names.1
  obtain ⟨d, designName⟩ := isText_iff.1 (names.2 design declared).1
  obtain ⟨v, viewName⟩ := isText_iff.1 ((names.2 design declared).2 view viewed)
  rw [Entity.sourceOf, Entity.completed, Entity.defaultDesign, entityName, designName, viewName,
    same_str, Keyed.has]
  by_cases defaulted : d = e ∧ sources.find? (.str allView) = none
  · obtain ⟨rfl, absent⟩ := defaulted
    by_cases all : v = allView
    · subst all
      exact .inl ⟨⟨rfl, rfl, absent⟩, by simp [absent, ofOption]⟩
    · exact .inr ⟨fun usual => all (Value.str.inj usual.2.1), by simp [absent, Ne.symm all]⟩
  · have kept : (d == e && !(sources.find? (.str allView)).isSome) = false := by
      cases found : sources.find? (.str allView) <;> simp_all
    rw [kept]
    exact .inr ⟨fun usual => defaulted ⟨Value.str.inj usual.1, usual.2.2⟩, rfl⟩

theorem lacks_iff :
    entity.Lacks design sources view ↔ entity.sourceOf design sources view = .null := by
  rw [Entity.Lacks]
  rcases sourceOf_cases names declared viewed with ⟨usual, source⟩ | ⟨given, source⟩
  · rw [source]
    exact iff_of_false (fun lacks => lacks.2 usual) nofun
  · rw [source, and_iff_left given]

theorem viewSource_lacking (lacks : entity.Lacks design sources view) :
    viewSource entity design.name (entity.completed design sources) view =
      .error (entity.missingSource design view) := by
  have none := (lacks_iff names declared viewed).1 lacks
  obtain ⟨v, viewName⟩ := isText_iff.1 ((names.2 design declared).2 view viewed)
  rw [Entity.sourceOf] at none
  rw [viewSource, none, Entity.missingSource, viewName]
  rfl

theorem viewSource_given (given : ¬ entity.Lacks design sources view) :
    viewSource entity design.name (entity.completed design sources) view =
      .ok (view.name, .ofFields [("map", entity.sourceOf design sources view)]) := by
  have some := mt (lacks_iff names declared viewed).2 given
  rw [Entity.sourceOf] at some ⊢
  rw [viewSource, requireHashable_of_text ((names.2 design declared).2 view viewed)]
  dsimp only [bind, Except.bind]
  split
  next none => exact absurd none some
  next => rfl

end Sources

section Documents

variable {name source description : Value} {fields : List Field} {designs : List Design}
  {entity : Entity} (declares : Entity.Declares name fields designs)
  (made : Entity.make name source fields designs description = .ok entity)

include declares made

theorem nodup_ids_of_make : (entity.designs.map Design.id).Nodup := by
  have apart := (Entity.designNames_of_make declares made).nodup
  have texts := (Entity.textNames_of_make declares made).2
  refine List.Nodup.map_on (fun a memA b memB same => ?_) apart.of_map
  obtain ⟨s, nameA⟩ := isText_iff.1 (texts a memA).1
  obtain ⟨t, nameB⟩ := isText_iff.1 (texts b memB).1
  rw [Design.id, Design.id, nameA, nameB] at same
  have alike : s = t := (String.append_right_inj designPrefix).1 same
  exact List.inj_on_of_nodup_map apart memA memB (by rw [nameA, nameB, alike])

theorem find?_design {design : Design} (mem : design ∈ entity.designs) :
    (entity.designs.find? fun d => d.name.same design.name) = some design := by
  have texts := (Entity.textNames_of_make declares made).2
  have apart := (Entity.designNames_of_make declares made).nodup
  obtain ⟨s, named⟩ := isText_iff.1 (texts design mem).1
  have self : design.name.same design.name = true := by
    rw [named]
    exact same_refl rfl
  have present : (entity.designs.find? fun d => d.name.same design.name).isSome = true :=
    List.find?_isSome.2 ⟨design, mem, self⟩
  obtain ⟨d, found⟩ := Option.isSome_iff_exists.1 present
  have listed := List.mem_of_find?_eq_some found
  have same : d.name.same design.name = true := (List.find?_eq_some_iff_append.1 found).1
  have alike := eq_of_same_texts (texts d listed).1 (texts design mem).1 same
  rw [found, List.inj_on_of_nodup_map apart listed mem alike]

variable {given : Value} {design : Design} {sources : Entries} (mem : design ∈ entity.designs)
  (completes : mapSources entity given design.name = .ok (entity.completed design sources))

include mem completes

theorem designDocument_eq : designDocument entity given design.name = (do
    let views ← design.views.mapM
      (viewSource entity design.name (entity.completed design sources))
    return [(.str idField, .str design.id), (.str "language", .str "javascript"),
      (.str "views", .map (Keyed.ofPairs views))]) := by
  have self : design.name.orElse entity.defaultDesign = design.name := by
    rw [orElse, if_pos ((Entity.declares_of_make declares made).ofDesigns design mem).1.named]
  rw [designDocument, self]
  simp only [find?_design declares made mem, completes]
  rfl

theorem designDocument_built (full : ∀ view ∈ design.views, ¬ entity.Lacks design sources view) :
    designDocument entity given design.name = .ok (entity.designFields sources design) := by
  have names := Entity.textNames_of_make declares made
  have views : design.views.mapM
      (viewSource entity design.name (entity.completed design sources)) =
      .ok (design.views.map fun view =>
        (view.name, .ofFields [("map", entity.sourceOf design sources view)])) :=
    Outcome.mapM_ok (List.forall₂_map_right_iff.2 (List.forall₂_same.2 fun view viewed =>
      viewSource_given names mem viewed (full view viewed)))
  have apart : Keyed.Distinct (design.views.map fun view =>
      (view.name, Value.ofFields [("map", entity.sourceOf design sources view)])) := by
    have areNames := ((Entity.declares_of_make declares made).ofDesigns design mem).1.areNames
    exact List.pairwise_map.2 (List.pairwise_map.1 areNames.apart)
  rw [designDocument_eq declares made mem completes, views]
  change Except.ok [_, _, (_, Value.map (Keyed.ofPairs _))] = _
  rw [apart.ofPairs]
  rfl

theorem designDocument_blocked {before after : List View} {view : View}
    (split : design.views = before ++ view :: after)
    (full : ∀ view ∈ before, ¬ entity.Lacks design sources view)
    (lacks : entity.Lacks design sources view) :
    designDocument entity given design.name = .error (entity.missingSource design view) := by
  have names := Entity.textNames_of_make declares made
  have viewed : ∀ v ∈ before ++ view :: after, v ∈ design.views := fun v listed => split ▸ listed
  have blocked : design.views.mapM
      (viewSource entity design.name (entity.completed design sources)) =
      .error (entity.missingSource design view) := by
    rw [split]
    refine Outcome.mapM_error (fun v earlier => ⟨_, viewSource_given names mem
      (viewed v (List.mem_append_left _ earlier)) (full v earlier)⟩) ?_
    exact viewSource_lacking names mem (viewed view (List.mem_append_right _ (.head _))) lacks
  rw [designDocument_eq declares made mem completes, blocked]
  rfl

end Documents

end DocMapper
