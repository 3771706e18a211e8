import DocMapper.Proofs.Query.Clauses

/-!
# References in filters

A filter may name a view by a reference.  At the head of a triple the reference is
replaced by the name it holds, and the name compiles to the same lookup.  As a key of
a map it is left in place: it agrees with every declared view and with no second
condition, so what the map compiles to is a lookup on the reference itself.
-/

namespace DocMapper

open Value

theorem view_of_differs {view childView : Value} {p : Value} (named : view.isViewName = true)
    (leaves : ∀ leaf ∈ p.leaves, leaf.Named) (nonempty : p.leaves ≠ [])
    (on : ∀ leaf ∈ p.leaves, leaf.view? = some childView)
    (alike : childView.differs view = false) : childView = view := by
  obtain ⟨leaf, mem⟩ := List.exists_mem_of_ne_nil p.leaves nonempty
  obtain ⟨v, hv, childNamed⟩ := leaves leaf mem
  obtain rfl : v = childView := Option.some.inj (hv.symm.trans (on leaf mem))
  exact eq_of_not_differs childNamed named alike

mutual

theorem compilePredicate_view : ∀ {p view : Value} {options : Entries},
    (∀ leaf ∈ p.leaves, leaf.Named) → compilePredicate p = .ok (view, options) →
    p.leaves ≠ [] ∧ ∀ leaf ∈ p.leaves, leaf.view? = some view
  | .all (first :: rest), view, options, named, h => by
      rw [compilePredicate] at h
      obtain ⟨⟨view', options'⟩, hfirst, h⟩ := Outcome.bind_eq_ok.1 h
      obtain ⟨merged, hrest, h⟩ := Outcome.bind_eq_ok.1 h
      cases h
      obtain ⟨namedFirst, namedRest⟩ := List.forall_mem_append.1 named
      obtain ⟨nonempty, on⟩ := compilePredicate_view namedFirst hfirst
      obtain ⟨leaf, mem⟩ := List.exists_mem_of_ne_nil first.leaves nonempty
      obtain ⟨v, hv, viewNamed⟩ := namedFirst leaf mem
      obtain rfl : v = view := Option.some.inj (hv.symm.trans (on leaf mem))
      have onRest := compileRest_view viewNamed namedRest hrest
      exact ⟨List.append_ne_nil_of_left_ne_nil nonempty _,
        List.forall_mem_append.2 ⟨on, onRest⟩⟩
  | .eq .., _, _, _, h | .isIn .., _, _, _, h | .atLeast .., _, _, _, h
  | .atMost .., _, _, _, h => by
      cases h
      simp [leaves, view?]
  | .all [], _, _, _, h | .compare .., _, _, _, h | .null, _, _, _, h | .bool _, _, _, _, h
  | .int _, _, _, _, h | .float _, _, _, _, h | .str _, _, _, _, h | .bytes _, _, _, _, h
  | .list _, _, _, _, h | .tuple _, _, _, _, h | .map _, _, _, _, h | .readOnly _, _, _, _, h
  | .record .., _, _, _, h | .recordType _, _, _, _, h | .viewRef _, _, _, _, h => nomatch h

theorem compileRest_view : ∀ {rest : List Value} {clause view : Value}
    {options merged : Entries}, view.isViewName = true →
    (∀ leaf ∈ leavesOf rest, leaf.Named) →
    compileRest clause view options rest = .ok merged →
    ∀ leaf ∈ leavesOf rest, leaf.view? = some view
  | [], _, _, _, _, _, _, _ => nofun
  | p :: rest, clause, view, options, merged, named, leaves, h => by
      obtain ⟨leavesFirst, leavesRest⟩ := List.forall_mem_append.1 leaves
      cases hchild : compilePredicate p with
      | error failure =>
          rw [compileRest, hchild] at h
          cases h
      | ok answer =>
          obtain ⟨childView, childOptions⟩ := answer
          obtain ⟨nonempty, on⟩ := compilePredicate_view leavesFirst hchild
          rw [compileRest_cons hchild] at h
          obtain ⟨options', hmerge, h⟩ := Outcome.bind_eq_ok.1 h
          cases alike : childView.differs view with
          | true =>
              rw [alike] at hmerge
              cases hmerge
          | false =>
              obtain rfl := view_of_differs named leavesFirst nonempty on alike
              exact List.forall_mem_append.2 ⟨on, compileRest_view named leavesRest h⟩

end

def compileFilter (expr : Value) (entity : Entity) : Outcome Lookup := do
  compileQuery (← Query.everything.filter expr) entity

theorem compileFilter_eq (expr : Value) (entity : Entity) :
    compileFilter expr entity = (do
      let p ← parseFilter expr
      let (view, options) ← compilePredicate p
      if (entity.viewKeyTypes? entity.name view).isNone then
        refuse (.undeclaredView view entity.name entity.name p)
      else Lookup.make entity.name view (options.set (.str "include_docs") (.bool true))) := by
  rw [compileFilter, Query.filter]
  cases parseFilter expr with
  | error failure => rfl
  | ok p =>
      change compileQuery { Query.everything with clauses := [p] } entity = _
      rw [compileQuery]
      cases compilePredicate p with
      | error failure => rfl
      | ok answer =>
          obtain ⟨view, options⟩ := answer
          cases (entity.viewKeyTypes? entity.name view).isNone <;> rfl

theorem make_target {design view : Value} {options : Entries} {lookup : Lookup}
    (h : Lookup.make design view options = .ok lookup) :
    lookup.design = design ∧ lookup.view = view := by
  unfold Lookup.make at h
  split at h
  · obtain ⟨items, -, h⟩ := Outcome.bind_eq_ok.1 h
    cases h
    exact ⟨rfl, rfl⟩
  · cases h
    exact ⟨rfl, rfl⟩

theorem compileFilter_ok {expr : Value} {entity : Entity} {lookup : Lookup}
    (h : compileFilter expr entity = .ok lookup) :
    lookup.design = entity.name ∧ (entity.viewKeyTypes? entity.name lookup.view).isSome = true ∧
      ∃ p options, parseFilter expr = .ok p ∧
        compilePredicate p = .ok (lookup.view, options) := by
  rw [compileFilter_eq] at h
  obtain ⟨p, parsed, h⟩ := Outcome.bind_eq_ok.1 h
  obtain ⟨⟨view, options⟩, compiled, h⟩ := Outcome.bind_eq_ok.1 h
  change (if (entity.viewKeyTypes? entity.name view).isNone then _ else _) = _ at h
  split_ifs at h with undeclared
  · cases h
  · obtain ⟨design, rfl⟩ := make_target h
    have declared := Option.isSome_iff_ne_none.2 (mt Option.isNone_iff_eq_none.2 undeclared)
    exact ⟨design, declared, p, options, parsed, compiled⟩

def Entity.TextNames (entity : Entity) : Prop :=
  entity.name.isText = true ∧ ∀ design ∈ entity.designs,
    design.name.isText = true ∧ ∀ view ∈ design.views, view.name.isText = true

theorem eq_of_same_texts {a b : Value} (ha : a.isText = true) (hb : b.isText = true)
    (h : a.same b = true) : a = b := by
  obtain ⟨s, rfl⟩ := isText_iff.1 ha
  obtain ⟨t, rfl⟩ := isText_iff.1 hb
  rw [same_str, beq_iff_eq] at h
  rw [h]

theorem Entity.TextNames.mem_views {entity : Entity} (names : entity.TextNames) {view : Value}
    (text : view.isText = true)
    (declared : (entity.viewKeyTypes? entity.name view).isSome = true) :
    (entity.name, view) ∈ entity.views := by
  obtain ⟨types, found⟩ := Option.isSome_iff_exists.1 declared
  obtain ⟨design, designed, found⟩ := Option.bind_eq_some_iff.1 found
  obtain ⟨view', viewed, -⟩ := Option.bind_eq_some_iff.1 found
  have listed := List.mem_of_find?_eq_some designed
  have listed' := List.mem_of_find?_eq_some viewed
  obtain ⟨designText, viewTexts⟩ := names.2 design listed
  have alike : design.name.same entity.name = true := (List.find?_eq_some_iff_append.1 designed).1
  have alike' : view'.name.same view = true := (List.find?_eq_some_iff_append.1 viewed).1
  have sameDesign := eq_of_same_texts designText names.1 alike
  have sameView := eq_of_same_texts (viewTexts view' listed') text alike'
  refine List.mem_flatMap.2 ⟨design, listed, List.mem_map.2 ⟨view', listed', ?_⟩⟩
  rw [sameDesign, sameView]

theorem Entity.TextNames.isText_of_mem {entity : Entity} (names : entity.TextNames)
    {target : Value × Value} (mem : target ∈ entity.views) : target.2.isText = true := by
  obtain ⟨design, listed, mem⟩ := List.mem_flatMap.1 mem
  obtain ⟨view, listed', rfl⟩ := List.mem_map.1 mem
  exact (names.2 design listed).2 view listed'

/-! ## References and names -/

section Filters

variable {expr p : Value} {entity : Entity} {lookup : Lookup} {options : Entries}

theorem view_of_reference (filter : expr.IsFilter) (parsed : parseFilter expr = .ok p)
    {view : Value} (compiled : compilePredicate p = .ok (view, options)) {clause key : Value}
    (part : clause ∈ expr.conjuncts) (given : key ∈ clause.keys) : view = key := by
  obtain ⟨comes, reached⟩ := filter.placed parsed
  have named : ∀ leaf ∈ p.leaves, leaf.Named := fun leaf mem => by
    obtain ⟨clause, -, placed⟩ := comes leaf mem
    exact placed.named
  obtain ⟨leaf, mem, on⟩ := reached clause part key given
  exact Option.some.inj (((compilePredicate_view named compiled).2 leaf mem).symm.trans on)

theorem isText_of_placed {view : Value} (compiled : compilePredicate p = .ok (view, options))
    (placed : ∀ leaf ∈ p.leaves, ∃ clause : Value, clause.Placed leaf ∧
      ∀ key ∈ clause.keys, key.isViewRef = false) : view.isText = true := by
  have named : ∀ leaf ∈ p.leaves, leaf.Named := fun leaf mem => by
    obtain ⟨clause, placed, -⟩ := placed leaf mem
    exact placed.named
  obtain ⟨nonempty, on⟩ := compilePredicate_view named compiled
  obtain ⟨leaf, mem⟩ := List.exists_mem_of_ne_nil p.leaves nonempty
  obtain ⟨clause, placed, keyed⟩ := placed leaf mem
  exact placed.text keyed (on leaf mem)

theorem isText_of_keyedByName (filter : expr.IsFilter) (keyed : expr.KeyedByName)
    (parsed : parseFilter expr = .ok p) {view : Value}
    (compiled : compilePredicate p = .ok (view, options)) : view.isText = true := by
  refine isText_of_placed compiled fun leaf mem => ?_
  obtain ⟨clause, part, placed⟩ := (filter.placed parsed).1 leaf mem
  exact ⟨clause, placed, keyed clause part⟩

theorem target_mem_views_iff (filter : expr.IsFilter) (names : entity.TextNames)
    (h : compileFilter expr entity = .ok lookup) :
    (lookup.design, lookup.view) ∈ entity.views ↔ expr.KeyedByName := by
  obtain ⟨design, declared, p, options, parsed, compiled⟩ := compileFilter_ok h
  constructor
  · intro mem clause part key given
    obtain rfl := view_of_reference filter parsed compiled part given
    exact isViewRef_of_isText (names.isText_of_mem mem)
  · intro keyed
    rw [design]
    exact names.mem_views (isText_of_keyedByName filter keyed parsed compiled) declared

theorem references_of_same_lookup (filter : expr.IsFilter)
    (h : compileFilter expr entity = .ok lookup)
    (h' : compileFilter expr.byNames entity = .ok lookup) :
    expr.KeyedByName ∧ expr.HeadedByName := by
  obtain ⟨-, -, p, options, parsed, compiled⟩ := compileFilter_ok h
  obtain ⟨-, -, p', options', renamed, compiled'⟩ := compileFilter_ok h'
  have parts := (parseFilter_conjuncts (f := id) (by simp) parsed).2
  obtain ⟨comes, parts'⟩ := parseFilter_conjuncts
    (fun head operands word => byNames_conj operands word) renamed
  have headed : ∀ clause ∈ expr.conjuncts, clause.HeadedByName := by
    intro clause part
    obtain ⟨q, hq, -⟩ := parts clause part
    obtain ⟨q', hq', -⟩ := parts' clause part
    exact (filter clause part).headed hq hq'
  have text : lookup.view.isText = true := by
    refine isText_of_placed compiled' fun leaf mem => ?_
    obtain ⟨clause, part, q', hq', mem⟩ := comes leaf mem
    obtain ⟨clause', keyed⟩ := (filter clause part).renamed (headed clause part)
    exact ⟨clause.byNames, (clause'.placed hq').1 leaf mem, keyed⟩
  constructor
  · intro clause part key given
    obtain rfl := view_of_reference filter parsed compiled part given
    exact isViewRef_of_isText text
  · intro clause part
    refine headed clause part clause ?_
    rw [(filter clause part).conjuncts_eq]
    exact List.mem_singleton_self clause

theorem same_lookups_iff (filter : expr.IsFilter) :
    (∀ lookup, compileFilter expr.byNames entity = .ok lookup ↔
      compileFilter expr entity = .ok lookup) ↔
    (expr.KeyedByName ∧ expr.HeadedByName) ∨
      ∀ lookup, compileFilter expr entity ≠ .ok lookup ∧
        compileFilter expr.byNames entity ≠ .ok lookup := by
  constructor
  · intro same
    by_cases accepted : ∃ lookup, compileFilter expr entity = .ok lookup
    · obtain ⟨lookup, h⟩ := accepted
      exact .inl (references_of_same_lookup filter h ((same lookup).2 h))
    · exact .inr fun lookup => ⟨fun h => accepted ⟨lookup, h⟩,
        fun h => accepted ⟨lookup, (same lookup).1 h⟩⟩
  · rintro (⟨keyed, headed⟩ | refused) lookup
    · rw [compileFilter_eq, compileFilter_eq, parseFilter_byNames filter keyed headed]
    · exact iff_of_false (refused lookup).2 (refused lookup).1

theorem compileFilter_undeclared (filter : expr.IsFilter) (names : entity.TextNames)
    (keyed : expr.KeyedByName) (parsed : parseFilter expr = .ok p) {view : Value}
    (compiled : compilePredicate p = .ok (view, options))
    (undeclared : (entity.name, view) ∉ entity.views) :
    compileFilter expr entity = refuse (.undeclaredView view entity.name entity.name p) := by
  have text := isText_of_keyedByName filter keyed parsed compiled
  have none : (entity.viewKeyTypes? entity.name view).isNone = true := by
    rw [← Option.not_isSome, Bool.not_eq_true']
    exact Bool.eq_false_iff.2 fun declared => undeclared (names.mem_views text declared)
  rw [compileFilter_eq, parsed]
  change (compilePredicate p >>= _) = _
  rw [compiled]
  exact if_pos none

/-- A filter compiles to the same lookups with names in place of its references exactly
if no key of a map is a reference and no triple is headed by a reference to a word of
filters, or if both forms are refused.  The view of a lookup is declared exactly if no
key is a reference; without such keys a view that is not declared is refused. -/
theorem compileFilter_references (filter : expr.IsFilter) (names : entity.TextNames) :
    ((∀ lookup, compileFilter expr.byNames entity = .ok lookup ↔
        compileFilter expr entity = .ok lookup) ↔
      (expr.KeyedByName ∧ expr.HeadedByName) ∨
        ∀ lookup, compileFilter expr entity ≠ .ok lookup ∧
          compileFilter expr.byNames entity ≠ .ok lookup) ∧
    (∀ lookup, compileFilter expr entity = .ok lookup →
      ((lookup.design, lookup.view) ∈ entity.views ↔ expr.KeyedByName)) ∧
    (expr.KeyedByName → ∀ p view options, parseFilter expr = .ok p →
      compilePredicate p = .ok (view, options) → (entity.name, view) ∉ entity.views →
      ∃ refusal : Refusal, refusal.reason = "unknown_view" ∧
        compileFilter expr entity = refuse refusal) := by
  refine ⟨same_lookups_iff filter, fun lookup h => target_mem_views_iff filter names h, ?_⟩
  intro keyed p view options parsed compiled undeclared
  exact ⟨_, rfl, compileFilter_undeclared filter names keyed parsed compiled undeclared⟩

end Filters

namespace Articles

def entity : Entity :=
  ⟨.str "Article", .str "articles", [.plain "_id" .binaryId],
    [⟨.str "Article", [Entity.everyDocument, ⟨.str "by_title", [.str "string"]⟩]⟩], .null⟩

theorem textNames : entity.TextNames := by
  simp [Entity.TextNames, entity, Entity.everyDocument, isText]

def titlesFrom : Value := .tuple [.viewRef (.str "by_title"), .str ">=", .str "a"]

def titlesTo : Value := .map [(.str "by_title", .map [(.str "<=", .str "c")])]

def titles : Value := .tuple [.str "and", titlesFrom, .tuple [.str "AND", titlesTo]]

theorem conjuncts_titles : titles.conjuncts = [titlesFrom, titlesTo] := rfl

def between (view : Value) : Value :=
  .map [(view, .map [(.str ">=", .str "a"), (.str "<=", .str "c")])]

theorem isFilter_between {view : Value} (named : view.isViewName = true) :
    (between view).IsFilter := by
  rintro clause (_ | ⟨_, ⟨⟩⟩)
  exact .map _ (by simpa using named)

end Articles

open Articles

/-- A range whose lower bound names the view by a reference, and a view not declared. -/
theorem compileFilter_range_of_titles :
    titles.IsFilter ∧ entity.TextNames ∧ titles.byNames ≠ titles ∧
      (∃ lookup, compileFilter titles entity = .ok lookup ∧
        compileFilter titles.byNames entity = .ok lookup ∧
        (lookup.design, lookup.view) ∈ entity.views) ∧
      ∃ refusal : Refusal, refusal.reason = "unknown_view" ∧
        compileFilter (between (.str "by_date")) entity = refuse refusal := by
  have filter : titles.IsFilter := by
    rw [IsFilter, conjuncts_titles, List.forall_mem_cons, List.forall_mem_singleton]
    exact ⟨.triple _ _ _ (by decide) rfl, .map _ (by simp [isViewName, isText])⟩
  have keyed : titles.KeyedByName := by
    rw [KeyedByName, conjuncts_titles]
    simp [keys, titlesFrom, titlesTo, entries?, isViewRef]
  have headed : titles.HeadedByName := by
    rw [HeadedByName, conjuncts_titles]
    rintro clause (_ | ⟨_, _ | ⟨_, ⟨⟩⟩⟩) head found ref
    · cases found
      decide
    · cases found
  have compiles : compileFilter titles entity = .ok ⟨.str "Article", .str "by_title",
      [(.str "startkey", .str "a"), (.str "endkey", .str "c"),
        (.str "include_docs", .bool true)]⟩ := rfl
  have renamed : titles.byNames ≠ titles := by
    have word : Text.lower "and" = "and" := by decide
    simp [titles, titlesFrom, byNames, allByNames, headWord, referent, word]
  obtain ⟨same, declared, -⟩ := compileFilter_references filter textNames
  have dates : (between (.str "by_date")).IsFilter := isFilter_between rfl
  have dated : (between (.str "by_date")).KeyedByName := by
    rintro clause (_ | ⟨_, ⟨⟩⟩) key (_ | ⟨_, ⟨⟩⟩)
    rfl
  have undeclared := (compileFilter_references dates textNames).2.2 dated
    (.all [.atLeast (.str "by_date") (.str "a"), .atMost (.str "by_date") (.str "c")])
    (.str "by_date") [(.str "startkey", .str "a"), (.str "endkey", .str "c")] rfl rfl
    (by simp [Entity.views, entity, Entity.everyDocument, allView])
  exact ⟨filter, textNames, renamed,
    ⟨_, compiles, (same.2 (.inl ⟨keyed, headed⟩) _).2 compiles, (declared _ compiles).2 keyed⟩,
    undeclared⟩

/-- With a reference as a key, a view that is not declared is accepted, and two bounds
on one view are refused. -/
theorem compileFilter_keyed_by_reference :
    let stray (view : Value) : Value := .map [(view, .int 1)]
    let named : Value := .str "by_date"
    let title : Value := .str "by_title"
    (stray (.viewRef named)).IsFilter ∧ (between (.viewRef title)).IsFilter ∧ entity.TextNames ∧
      (stray (.viewRef named)).byNames = stray named ∧
      (between (.viewRef title)).byNames = between title ∧
      (.str "Article", named) ∉ entity.views ∧
      compileFilter (stray (.viewRef named)) entity = .ok ⟨.str "Article", .viewRef named,
        [(.str "key", .int 1), (.str "include_docs", .bool true)]⟩ ∧
      compileFilter (stray named) entity = refuse (.undeclaredView named (.str "Article")
        (.str "Article") (.eq named (.int 1))) ∧
      (∃ refusal, compileFilter (between (.viewRef title)) entity = refuse refusal) ∧
      ∃ lookup, compileFilter (between title) entity = .ok lookup := by
  intro stray named title
  have strayed : (stray (.viewRef named)).IsFilter := by
    rintro clause (_ | ⟨_, ⟨⟩⟩)
    exact .map _ (by simp [isViewName, isText, named])
  refine ⟨strayed, isFilter_between rfl, textNames, rfl, rfl, ?_, rfl, rfl, ⟨_, rfl⟩, ⟨_, rfl⟩⟩
  simp [Entity.views, entity, Entity.everyDocument, allView, named]

end DocMapper
