import DocMapper.Proofs.Query.Conjuncts
import DocMapper.Query.Compile

/-!
# Compiling predicate trees

A tree compiles exactly if no conjunction in it is empty and its leaves ask a view
for a shape; it then compiles to the options of that shape.
-/

namespace DocMapper

open Value

theorem allTrees_iff {ps : List Value} : allTrees ps = true ↔ ∀ p ∈ ps, p.isTree = true := by
  induction ps with
  | nil => simp [allTrees]
  | cons p ps ih => simp [allTrees, ih]

mutual

theorem isTree_leaves : ∀ {p : Value}, p.isTree = true → ∀ leaf ∈ p.leaves, leaf.isTree = true
  | .all parts, h => isTree_leavesOf h
  | .eq .., h | .isIn .., h | .atLeast .., h | .atMost .., h | .compare .., h => by
      simpa [leaves] using h

theorem isTree_leavesOf : ∀ {ps : List Value}, allTrees ps = true →
    ∀ leaf ∈ leavesOf ps, leaf.isTree = true
  | [], _ => by simp [leavesOf]
  | p :: ps, h => by
      obtain ⟨hp, hps⟩ := Bool.and_eq_true_iff.1 h
      intro leaf mem
      rcases List.mem_append.1 mem with mem | mem
      · exact isTree_leaves hp leaf mem
      · exact isTree_leavesOf hps leaf mem

end

theorem leaves_ne_nil : ∀ {p : Value}, p.isFilled = true → p.leaves ≠ []
  | .all (first :: rest), h => by
      have filled : (!(first :: rest).isEmpty && (first.isFilled && allFilled rest)) = true := h
      simp only [Bool.and_eq_true] at filled
      have hfirst := leaves_ne_nil filled.2.1
      simp [leaves, leavesOf, hfirst]
  | .all [], h => by simp [isFilled] at h
  | .null, _ | .bool _, _ | .int _, _ | .float _, _ | .str _, _ | .bytes _, _ | .list _, _
  | .tuple _, _ | .map _, _ | .readOnly _, _ | .record .., _ | .recordType _, _
  | .viewRef _, _ | .eq .., _ | .isIn .., _ | .atLeast .., _ | .atMost .., _
  | .compare .., _ => by simp [leaves]

/-! ## Compiling -/

/-- The outcome is the view and the options that the leaves ask for, or a refusal if
they ask for nothing. -/
inductive Decides (filled : Bool) (leaves : List Value) : Outcome (Value × Entries) → Prop
  | accepts (view : Value) (shape : Shape) (hfilled : filled = true)
      (asks : Asks view leaves shape) : Decides filled leaves (.ok (view, shape.options))
  | refuses (refusal : Refusal)
      (nothing : filled = true → ∀ view shape, ¬ Asks view leaves shape) :
      Decides filled leaves (refuse refusal)

theorem Decides.of_group {filled filled' : Bool} {leaves group : List Value} {refusal : Refusal}
    (imp : filled = true → filled' = true)
    (nothing : filled' = true → ∀ view shape, ¬ Asks view group shape)
    (hne : filled' = true → group ≠ []) (sub : group ⊆ leaves) :
    Decides filled leaves (refuse refusal) := by
  refine .refuses refusal fun hf view shape asks => ?_
  obtain ⟨shape', asks'⟩ := asks.of_subset sub (hne (imp hf))
  exact nothing (imp hf) view shape' asks'

theorem differs_of_text {a b : Value} (ha : a.isText = true) (hb : b.isText = true) :
    a.differs b = true ↔ a ≠ b := by
  obtain ⟨s, rfl⟩ := isText_iff.1 ha
  obtain ⟨t, rfl⟩ := isText_iff.1 hb
  rw [differs_json rfl rfl, same_str]
  simp

theorem decides_exact (view : Value) {value : Value} (json : value.isJson = true) :
    Decides true [.eq view value] (.ok (view, (Shape.exact value).options)) := by
  have same : AllSame [value] := by
    simpa [AllSame] using same_refl json
  exact .accepts view (.exact value) rfl (.exact value [] same)

theorem decides_among (view : Value) (values : List Value) :
    Decides true [.isIn view values] (.ok (view, (Shape.among values).options)) := by
  have all : values.filter (fun key => ([] : List (List Value)).all key.isAmong) = values :=
    List.filter_true values
  have asks : Asks view [.isIn view values] _ := .among values []
  rw [all] at asks
  exact .accepts view (.among values) rfl asks

theorem decides_bound (view : Value) (side : Bound) {value : Value} (json : value.isJson = true) :
    Decides true [Bound.predicate view (side, value)]
      (.ok (view, (Shape.range side value none).options)) := by
  have same : ∀ at', AllSame (Bound.on at' [(side, value)]) := by
    intro at'
    by_cases h : side = at'
    · simpa [AllSame, Bound.on, h] using same_refl json
    · simp [AllSame, Bound.on, h]
  have asks : Asks view [Bound.predicate view (side, value)] _ := .range side value [] same
  exact .accepts view (.range side value none) rfl asks

theorem compileRest_cons {clause view childView p : Value} {options childOptions : Entries}
    {rest : List Value} (h : compilePredicate p = .ok (childView, childOptions)) :
    compileRest clause view options (p :: rest) =
      (if childView.differs view then refuse (.severalViews view childView clause)
        else mergeOptions clause options childOptions) >>= fun options =>
        compileRest clause view options rest := by
  rw [compileRest, h]
  cases hd : childView.differs view <;> simp only [bind, Except.bind, hd] <;> rfl

theorem Asks.merge_decides {view view' : Value} {leaves leaves' : List Value}
    {shape shape' : Shape} (clause : Value) (h : Asks view leaves shape)
    (h' : Asks view' leaves' shape') (trees : ∀ p ∈ leaves, p.isTree = true)
    (trees' : ∀ p ∈ leaves', p.isTree = true) :
    (∃ t, Asks view (leaves ++ leaves') t ∧
      (if view'.differs view then refuse (.severalViews view view' clause)
        else mergeOptions clause shape.options shape'.options) = .ok t.options) ∨
    (∀ w t, ¬ Asks w (leaves ++ leaves') t) ∧ ∃ refusal,
      (if view'.differs view then refuse (.severalViews view view' clause)
        else mergeOptions clause shape.options shape'.options) = refuse refusal := by
  have together := fun w t => h.append_iff (w := w) (t := t) h' trees trees'
  have texts := differs_of_text (h'.view_isText trees') (h.view_isText trees)
  have merged := mergeOptions_meet clause (h.isJson trees) (h'.isJson trees')
  by_cases hv : view' = view
  · have alike : view'.differs view = false :=
      Bool.eq_false_iff.2 fun hd => texts.1 hd hv
    rw [alike]
    simp only [Bool.false_eq_true, if_false]
    cases hmeet : shape.meet shape' with
    | none =>
        rw [hmeet] at merged
        obtain ⟨refusal, merged⟩ := merged
        exact .inr ⟨fun w t ht => by simp [together, hmeet] at ht, refusal, merged⟩
    | some t =>
        rw [hmeet] at merged
        exact .inl ⟨t, (together view t).2 ⟨rfl, hv, hmeet⟩, merged⟩
  · rw [texts.2 hv]
    exact .inr ⟨fun w t ht => hv ((together w t).1 ht).2.1, _, rfl⟩

mutual

theorem compilePredicate_decides : ∀ {p : Value}, p.isTree = true →
    Decides p.isFilled p.leaves (compilePredicate p)
  | .eq view value, h => decides_exact view (Bool.and_eq_true_iff.1 h).2
  | .isIn view values, _ => decides_among view values
  | .atLeast view value, h => decides_bound view .lower (Bool.and_eq_true_iff.1 h).2
  | .atMost view value, h => decides_bound view .upper (Bool.and_eq_true_iff.1 h).2
  | .compare view op value, h => by
      refine .refuses _ fun _ view' shape asks => ?_
      have kind := asks.leafKind_of_mem List.mem_cons_self
      cases kind
  | .all [], _ => .refuses _ fun hf => by simp [isFilled] at hf
  | .all (first :: rest), h => by
      obtain ⟨hfirst, hrest⟩ := Bool.and_eq_true_iff.1 h
      have filled : (Value.all (first :: rest)).isFilled =
          (first.isFilled && allFilled rest) := rfl
      have together : (Value.all (first :: rest)).leaves = first.leaves ++ leavesOf rest := rfl
      rw [filled, together]
      have ih := compilePredicate_decides hfirst
      have next := fun view shape => compileRest_decides hrest (.all (first :: rest))
        (v := view) (s := shape) (isTree_leaves hfirst)
      rw [compilePredicate]
      generalize compilePredicate first = outcome at ih ⊢
      cases ih with
      | refuses refusal nothing =>
          exact .of_group (fun hf => (Bool.and_eq_true_iff.1 hf).1) nothing leaves_ne_nil
            (List.subset_append_left _ _)
      | accepts view shape hf asks =>
          rw [hf, Bool.true_and]
          exact next view shape asks

/-- The options of the parts of a conjunction are merged one after the other;
`before` are the leaves whose options were merged already. -/
theorem compileRest_decides : ∀ {rest : List Value}, allTrees rest = true →
    ∀ (clause : Value) {v : Value} {s : Shape} {before : List Value},
      (∀ p ∈ before, p.isTree = true) → Asks v before s →
      Decides (allFilled rest) (before ++ leavesOf rest) (do
        let options ← compileRest clause v s.options rest
        return (v, options))
  | [], _, _, view, shape, before, _, asks => by
      have whole : before ++ leavesOf [] = before := List.append_nil _
      rw [whole]
      exact .accepts view shape rfl asks
  | p :: rest, h, clause, view, shape, before, trees, asks => by
      obtain ⟨hp, hrest⟩ := Bool.and_eq_true_iff.1 h
      have filled : allFilled (p :: rest) = (p.isFilled && allFilled rest) := rfl
      have ptrees := isTree_leaves hp
      have ih := compilePredicate_decides hp
      have grouped : before ++ leavesOf (p :: rest) =
          (before ++ p.leaves) ++ leavesOf rest := (List.append_assoc ..).symm
      have both : ∀ leaf ∈ before ++ p.leaves, leaf.isTree = true :=
        List.forall_mem_append.2 ⟨trees, ptrees⟩
      have next := fun shape => compileRest_decides hrest clause (v := view) (s := shape) both
      rw [filled, grouped]
      generalize hchild : compilePredicate p = outcome at ih
      cases ih with
      | refuses refusal nothing =>
          rw [compileRest, hchild]
          refine .of_group (fun hf => (Bool.and_eq_true_iff.1 hf).1) nothing leaves_ne_nil ?_
          rw [List.append_assoc]
          exact List.subset_append_of_subset_right _ (List.subset_append_left _ _)
      | accepts view' shape' hf asks' =>
          rw [compileRest_cons hchild, hf]
          obtain ⟨t, together, merged⟩ | ⟨nothing, refusal, merged⟩ :=
            asks.merge_decides clause asks' trees ptrees
          · rw [merged]
            exact next t together
          · -- Leaves that do not go together are refused wherever the rest leads.
            rw [merged]
            refine .of_group (fun _ => rfl) (fun _ => nothing) (fun _ => ?_)
              (List.subset_append_left _ _)
            exact List.append_ne_nil_of_left_ne_nil asks.ne_nil _

end

theorem compilePredicate_ok_iff {p : Value} (h : p.isTree = true) {view : Value}
    {options : Entries} :
    compilePredicate p = .ok (view, options) ↔
      p.isFilled = true ∧ ∃ shape, Asks view p.leaves shape ∧ options = shape.options := by
  have decided := compilePredicate_decides h
  generalize compilePredicate p = outcome at decided ⊢
  cases decided with
  | accepts view' shape hf asks =>
      constructor
      · intro heq
        cases heq
        exact ⟨hf, shape, asks, rfl⟩
      · rintro ⟨-, shape', asks', rfl⟩
        obtain ⟨rfl, rfl⟩ := asks.unique asks'
        rfl
  | refuses refusal nothing =>
      constructor
      · intro heq
        cases heq
      · rintro ⟨hf, shape, asks, -⟩
        exact absurd asks (nothing hf view shape)

theorem allFilled_leaves : ∀ leaves : List Value,
    (∀ p ∈ leaves, p.leaves = [p] ∧ p.isFilled = true) →
    leavesOf leaves = leaves ∧ allFilled leaves = true
  | [], _ => ⟨rfl, rfl⟩
  | p :: ps, h => by
      obtain ⟨hp, filled⟩ := h p List.mem_cons_self
      obtain ⟨hps, allFilled'⟩ :=
        allFilled_leaves ps fun q mem => h q (List.mem_cons_of_mem _ mem)
      constructor
      · rw [leavesOf, hp, hps]
        rfl
      · rw [allFilled, filled, allFilled']
        rfl

theorem Asks.leaf {view : Value} {leaves : List Value} {shape : Shape}
    (h : Asks view leaves shape) {p : Value} (mem : p ∈ leaves) :
    p.leaves = [p] ∧ p.isFilled = true := by
  have kind := h.leafKind_of_mem mem
  cases p <;> first | exact ⟨rfl, rfl⟩ | cases kind

theorem anchors_options (shape : Shape) :
    anchors shape.options = ["key"] ∨ anchors shape.options = ["keys"] ∨
      anchors shape.options ≠ [] ∧ ∀ name ∈ anchors shape.options, name ∈ rangeOptions := by
  rcases shape with key | keys | ⟨side, key, _ | other⟩
  · exact .inl rfl
  · exact .inr (.inl rfl)
  · refine .inr (.inr ?_)
    have lower : ∀ name ∈ ["startkey"], name ∈ rangeOptions := by simp [rangeOptions]
    have upper : ∀ name ∈ ["endkey"], name ∈ rangeOptions := by simp [rangeOptions]
    cases side
    · exact ⟨List.cons_ne_nil "startkey" [], lower⟩
    · exact ⟨List.cons_ne_nil "endkey" [], upper⟩
  · refine .inr (.inr ?_)
    cases side <;> exact ⟨List.cons_ne_nil "startkey" ["endkey"], fun name mem => mem⟩

theorem compilePredicate_total {p : Value} (h : p.isTree = true) :
    (∃ answer, compilePredicate p = .ok answer) ∨
      ∃ refusal, compilePredicate p = refuse refusal := by
  have decided := compilePredicate_decides h
  generalize compilePredicate p = outcome at decided ⊢
  cases decided with
  | accepts view shape _ _ => exact .inl ⟨_, rfl⟩
  | refuses refusal _ => exact .inr ⟨refusal, rfl⟩

theorem compilePredicate_flat {p : Value} (h : p.isTree = true) {view : Value} {shape : Shape}
    (asks : Asks view p.leaves shape) :
    compilePredicate (.all p.leaves) = .ok (view, shape.options) := by
  obtain ⟨flat, flatFilled⟩ := allFilled_leaves p.leaves fun q mem => asks.leaf mem
  have trees : (Value.all p.leaves).isTree = true := allTrees_iff.2 (isTree_leaves h)
  refine (compilePredicate_ok_iff trees).2 ⟨?_, shape, ?_, rfl⟩
  · have nonempty : p.leaves.isEmpty = false := List.isEmpty_eq_false_iff.2 asks.ne_nil
    rw [isFilled, nonempty, flatFilled]
    rfl
  · rw [leaves, flat]
    exact asks

theorem compilePredicate_perm {p q : Value} (hp : p.isTree = true) (hq : q.isTree = true)
    (filled : q.isFilled = true) (perm : p.leaves.Perm q.leaves)
    (compiles : ∃ answer, compilePredicate p = .ok answer) :
    ∃ answer, compilePredicate q = .ok answer := by
  obtain ⟨⟨view, options⟩, hok⟩ := compiles
  obtain ⟨-, shape, asks, -⟩ := (compilePredicate_ok_iff hp).1 hok
  obtain ⟨shape', asks'⟩ := asks.of_subset perm.symm.subset (leaves_ne_nil filled)
  exact ⟨_, (compilePredicate_ok_iff hq).2 ⟨filled, shape', asks', rfl⟩⟩

/-- Compiling a tree depends on its leaves alone: it succeeds exactly if they ask a
view for a shape and no conjunction is empty, and is refused otherwise.  The result
is that of the flat conjunction of the leaves, with a key, a set of keys or bounds
and never two of the three.  Neither the order nor the grouping of the leaves
changes whether a tree compiles. -/
theorem compilePredicate_decided_by_leaves {p : Value} (h : p.isTree = true) :
    (∀ view options, compilePredicate p = .ok (view, options) ↔
      p.isFilled = true ∧ ∃ shape, Asks view p.leaves shape ∧ options = shape.options) ∧
    ((∃ answer, compilePredicate p = .ok answer) ∨
      ∃ refusal, compilePredicate p = refuse refusal) ∧
    (∀ view options, compilePredicate p = .ok (view, options) →
      compilePredicate (.all p.leaves) = .ok (view, options) ∧
      options.find? (.str "key") = (exactKeys p.leaves).head? ∧
      options.find? (.str "keys") = (commonKeys (keySets p.leaves)).map .tuple ∧
      options.find? (.str "startkey") = (boundKeys .lower p.leaves).head? ∧
      options.find? (.str "endkey") = (boundKeys .upper p.leaves).head? ∧
      (anchors options = ["key"] ∨ anchors options = ["keys"] ∨
        anchors options ≠ [] ∧ ∀ name ∈ anchors options, name ∈ rangeOptions)) ∧
    (∀ q : Value, q.isTree = true → p.isFilled = true → q.isFilled = true →
      p.leaves.Perm q.leaves →
      ((∃ answer, compilePredicate p = .ok answer) ↔
        ∃ answer, compilePredicate q = .ok answer)) := by
  refine ⟨fun view options => compilePredicate_ok_iff h, compilePredicate_total h, ?_, ?_⟩
  · intro view options hok
    obtain ⟨-, shape, asks, rfl⟩ := (compilePredicate_ok_iff h).1 hok
    obtain ⟨key, keys, bounds⟩ := asks.find?_options
    exact ⟨compilePredicate_flat h asks, key, keys, bounds .lower, bounds .upper,
      anchors_options shape⟩
  · intro q hq pfilled qfilled perm
    exact ⟨compilePredicate_perm h hq qfilled perm, compilePredicate_perm hq h pfilled perm.symm⟩

/-- Bounds of a range in a nested conjunction; `true` equals `1`. -/
theorem compilePredicate_nested_range :
    let p : Value := .all [.atMost (.str "v") (.list [.int 2]),
      .all [.atLeast (.str "v") (.int 1), .atLeast (.str "v") (.bool true)]]
    let q : Value := .all [.atLeast (.str "v") (.bool true),
      .atMost (.str "v") (.list [.int 2]), .atLeast (.str "v") (.int 1)]
    p.isTree = true ∧ q.isTree = true ∧ p.leaves.Perm q.leaves ∧
      compilePredicate p =
        .ok (.str "v", [(.str "endkey", .list [.int 2]), (.str "startkey", .int 1)]) ∧
      ∃ answer, compilePredicate q = .ok answer := by
  intro p q
  have hp : p.isTree = true := rfl
  have hq : q.isTree = true := rfl
  have perm : (p.leaves.take 2 ++ p.leaves.drop 2).Perm (p.leaves.drop 2 ++ p.leaves.take 2) :=
    List.perm_append_comm
  have spec := compilePredicate_decided_by_leaves hp
  have compiled : compilePredicate p =
      .ok (.str "v", [(.str "endkey", .list [.int 2]), (.str "startkey", .int 1)]) := rfl
  exact ⟨hp, hq, perm, compiled, (spec.2.2.2 q hq rfl rfl perm).1 ⟨_, compiled⟩⟩

end DocMapper
