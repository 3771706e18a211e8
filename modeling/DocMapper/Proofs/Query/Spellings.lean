import DocMapper.Proofs.Query.Options
import DocMapper.Proofs.Query.References

/-!
# Spellings of a filter

A filter map stands for the triples of its entries, in their order.  The map and the
conjunction of its triples compile alike: to one lookup, or to refusals for one reason.
A single comparison can be spelled as a triple, as a map, and by an operator on a view
reference.
-/

namespace DocMapper

open Value

namespace Outcome

variable {α β : Type}

def Agrees (outcome outcome' : Outcome α) : Prop :=
  (∃ a, outcome = .ok a ∧ outcome' = .ok a) ∨
    ∃ refusal refusal', outcome = refuse refusal ∧ outcome' = refuse refusal' ∧
      refusal.reason = refusal'.reason

variable {outcome : Outcome α} {kind : α → Prop} {kind' : β → Prop}

theorem Yields.mapM {f : α → Outcome β} {xs : List α}
    (hf : ∀ x ∈ xs, (f x).Yields fun _ => True) :
    Yields (xs.mapM f) fun bs => bs.length = xs.length := by
  induction xs with
  | nil => exact yields_ok rfl
  | cons x xs ih =>
      rw [List.mapM_cons]
      obtain ⟨first, others⟩ := List.forall_mem_cons.1 hf
      exact first.bind fun b _ => (ih others).bind fun bs length =>
        yields_ok (congrArg (· + 1) length)

theorem Yields.refuses {f : α → Outcome β} {xs : List α}
    (hf : ∀ x ∈ xs, (f x).Yields fun _ => True) {x : α} (mem : x ∈ xs) {refusal : Refusal}
    (h : f x = refuse refusal) : ∃ refusal, xs.mapM f = refuse refusal := by
  rcases mapM hf with ⟨bs, mapped, -⟩ | refused
  · obtain ⟨b, -, hb⟩ := (mem_of_mapM mapped).1 x mem
    cases h.symm.trans hb
  · exact refused

theorem Yields.agrees_self (h : outcome.Yields kind) : outcome.Agrees outcome := by
  rcases h with ⟨a, rfl, -⟩ | ⟨refusal, rfl⟩
  · exact .inl ⟨a, rfl, rfl⟩
  · exact .inr ⟨refusal, refusal, rfl, rfl, rfl⟩

theorem Yields.agrees_bind {next next' : α → Outcome β} (h : outcome.Yields kind)
    (hnext : ∀ a, kind a → (next a).Agrees (next' a)) :
    (outcome >>= next).Agrees (outcome >>= next') := by
  rcases h with ⟨a, rfl, ha⟩ | ⟨refusal, rfl⟩
  · exact hnext a ha
  · exact .inr ⟨refusal, refusal, rfl, rfl, rfl⟩

end Outcome

theorem comparison_yields (view : Value) (op : String) (value : Value) :
    (comparison view op value).Yields fun _ => True := by
  unfold comparison
  split_ifs
  · exact Outcome.yields_ok trivial
  · split
    · exact Outcome.yields_refuse _
    · exact Outcome.yields_refuse _
    · split
      · exact Outcome.yields_ok trivial
      · exact Outcome.yields_refuse _
  · exact Outcome.yields_ok trivial
  · exact Outcome.yields_ok trivial
  · exact Outcome.yields_ok trivial
  · exact Outcome.yields_refuse _

/-- A text that heads no other kind of tuple. -/
def Value.isPlainView (view : Value) : Bool :=
  view.isText && !(["and", "or"].contains (headWord view))

def Value.isEmptyCondition (condition : Value) : Bool := condition.entries?.any List.isEmpty

def entryTriples (view condition : Value) : List Value :=
  match condition.entries? with
  | some conditions =>
      if isConditions conditions then conditions.map fun c => .tuple [view, c.1, c.2]
      else [.tuple [view, .str "==", condition]]
  | none => [.tuple [view, .str "==", condition]]

def triples (entries : Entries) : List Value := entries.flatMap fun e => entryTriples e.1 e.2

def built (view : Value) (op : String) (value : Value) : Outcome Value :=
  if op = "in" then view.isInItems value
  else .ofOption .wrongType (view.operator? (if op = "=" then "==" else op) value)

def Value.isKeys (value : Value) : Bool :=
  match value with
  | .str _ | .bytes _ => false
  | value => value.items?.isSome

theorem isPlainView_iff {view : Value} :
    view.isPlainView = true ↔
      ∃ s, view = .str s ∧ headWord (.str s) ≠ "and" ∧ headWord (.str s) ≠ "or" := by
  rw [isPlainView, Bool.and_eq_true, isText_iff]
  constructor
  · rintro ⟨⟨s, rfl⟩, other⟩
    exact ⟨s, rfl, by simpa using other⟩
  · rintro ⟨s, rfl, single, other⟩
    exact ⟨⟨s, rfl⟩, by simp [single, other]⟩

section Triples

variable {view : Value} {entries : Entries}

theorem parseFilter_triple (plain : view.isPlainView = true) (op value : Value) :
    parseFilter (.tuple [view, op, value]) = comparison view (operatorName op) value := by
  obtain ⟨s, rfl, single, other⟩ := isPlainView_iff.1 plain
  rw [parseFilter_text op value single, if_neg other]

theorem parseFilter_equality (plain : view.isPlainView = true) (value : Value) :
    parseFilter (.tuple [view, .str "==", value]) = .ok (.eq view value) := by
  have word : operatorName (.str "==") = "==" := by decide
  rw [parseFilter_triple plain, word]
  rfl

theorem mapM_map (conditions : Entries) (plain : view.isPlainView = true) :
    (conditions.map fun c => Value.tuple [view, c.1, c.2]).mapM parseFilter =
      conditions.mapM fun c => comparison view (operatorName c.1) c.2 := by
  rw [List.mapM_map]
  exact Outcome.mapM_congr fun c _ => parseFilter_triple plain c.1 c.2

theorem entryPredicates_eq (clause : Value) {condition : Value}
    (plain : view.isPlainView = true) (filled : condition.isEmptyCondition = false) :
    entryPredicates clause view condition = (entryTriples view condition).mapM parseFilter := by
  have whole : Except.ok [Value.eq view condition] =
      [Value.tuple [view, .str "==", condition]].mapM parseFilter := by
    rw [List.mapM_cons, parseFilter_equality plain]
    rfl
  unfold entryPredicates entryTriples
  rw [isEmptyCondition] at filled
  cases h : condition.entries? with
  | none => exact whole
  | some conditions =>
      rw [h, Option.any_some] at filled
      dsimp only
      split
      · rw [filled, mapM_map conditions plain]
        rfl
      · exact whole

theorem entryPredicates_empty (clause : Value) {condition : Value}
    (empty : condition.isEmptyCondition = true) :
    entryPredicates clause view condition = refuse (.emptyCondition view clause) := by
  rw [isEmptyCondition, Option.any_eq_true] at empty
  obtain ⟨conditions, h, empty⟩ := empty
  obtain rfl := List.isEmpty_iff.1 empty
  rw [entryPredicates, h]
  rfl

theorem parts_eq (clause : Value) (plain : ∀ e ∈ entries, e.1.isPlainView = true)
    (filled : ∀ e ∈ entries, e.2.isEmptyCondition = false) :
    (do return (← entries.mapM fun e => entryPredicates clause e.1 e.2).flatten) =
      (triples entries).mapM parseFilter := by
  induction entries with
  | nil => rfl
  | cons e entries ih =>
      obtain ⟨plainFirst, plain⟩ := List.forall_mem_cons.1 plain
      obtain ⟨filledFirst, filled⟩ := List.forall_mem_cons.1 filled
      rw [triples, List.flatMap_cons, List.mapM_append, ← triples, ← ih plain filled,
        ← entryPredicates_eq clause plainFirst filledFirst]
      simp only [List.mapM_cons, bind_assoc, pure_bind, List.flatten_cons]

theorem entryTriples_ne_nil (view : Value) {condition : Value}
    (filled : condition.isEmptyCondition = false) : entryTriples view condition ≠ [] := by
  unfold entryTriples
  rw [isEmptyCondition] at filled
  cases h : condition.entries? with
  | none => exact List.cons_ne_nil _ _
  | some conditions =>
      rw [h, Option.any_some] at filled
      dsimp only
      split
      · exact mt List.map_eq_nil_iff.1 (List.isEmpty_eq_false_iff.1 filled)
      · exact List.cons_ne_nil _ _

theorem triples_ne_nil (nonempty : entries ≠ [])
    (filled : ∀ e ∈ entries, e.2.isEmptyCondition = false) : triples entries ≠ [] := by
  obtain ⟨e, rest, rfl⟩ := List.exists_cons_of_ne_nil nonempty
  have first := entryTriples_ne_nil e.1 (filled e List.mem_cons_self)
  exact List.append_ne_nil_of_left_ne_nil first _

theorem triples_yield (plain : ∀ e ∈ entries, e.1.isPlainView = true) :
    ∀ t ∈ triples entries, (parseFilter t).Yields fun _ => True := by
  intro t mem
  obtain ⟨e, listed, mem⟩ := List.mem_flatMap.1 mem
  have equality : (parseFilter (.tuple [e.1, .str "==", e.2])).Yields fun _ => True := by
    rw [parseFilter_equality (plain e listed)]
    exact Outcome.yields_ok trivial
  unfold entryTriples at mem
  split at mem
  · split at mem
    · obtain ⟨c, -, rfl⟩ := List.mem_map.1 mem
      rw [parseFilter_triple (plain e listed)]
      exact comparison_yields _ _ _
    · rwa [List.mem_singleton.1 mem]
  · rwa [List.mem_singleton.1 mem]

theorem entryPredicates_yields (clause view condition : Value) :
    (entryPredicates clause view condition).Yields fun _ => True := by
  unfold entryPredicates
  split
  · next conditions _ =>
    split_ifs
    · exact Outcome.yields_refuse _
    · have compared := Outcome.Yields.mapM
        (fun (c : Value × Value) (_ : c ∈ conditions) =>
          comparison_yields view (operatorName c.1) c.2)
      exact compared.weaken fun _ _ => trivial
    · exact Outcome.yields_ok trivial
  · exact Outcome.yields_ok trivial

theorem parseFilter_entries {mapping : Value} (given : mapping.entries? = some entries) :
    parseFilter mapping = mapPredicate mapping entries := by
  cases mapping <;> cases given <;> rw [parseFilter]

theorem mapPredicate_eq (clause : Value) (plain : ∀ e ∈ entries, e.1.isPlainView = true)
    (filled : ∀ e ∈ entries, e.2.isEmptyCondition = false) :
    mapPredicate clause entries = (do
      match ← (triples entries).mapM parseFilter with
      | [] => refuse (.uninterpretable clause)
      | [p] => return p
      | ps => return .all ps) := by
  rw [← parts_eq clause plain filled, bind_assoc]
  simp only [pure_bind]
  rfl

theorem mapPredicate_empty (clause : Value) {e : Value × Value} (mem : e ∈ entries)
    (empty : e.2.isEmptyCondition = true) :
    ∃ refusal, mapPredicate clause entries = refuse refusal := by
  have refused := Outcome.Yields.refuses
    (fun (e : Value × Value) (_ : e ∈ entries) => entryPredicates_yields clause e.1 e.2) mem
    (entryPredicates_empty clause empty)
  obtain ⟨refusal, refused⟩ := refused
  exact ⟨refusal, by rw [mapPredicate, refused]; rfl⟩

theorem parseFilter_conjunction (nonempty : triples entries ≠ []) :
    parseFilter (.tuple (.str "and" :: triples entries)) =
      Value.all <$> (triples entries).mapM parseFilter := by
  have word : headWord (.str "and") = "and" := by decide
  rw [parseFilter_conj _ word, if_neg (mt List.isEmpty_iff.1 nonempty)]

end Triples

/-! ## Lookups -/

def lookupOf (entity : Entity) (p : Value) : Outcome Lookup := do
  let (view, options) ← compilePredicate p
  if (entity.viewKeyTypes? entity.name view).isNone then
    refuse (.undeclaredView view entity.name entity.name p)
  else Lookup.make entity.name view (options.set (.str "include_docs") (.bool true))

theorem compileFilter_parsed (expr : Value) (entity : Entity) :
    compileFilter expr entity = parseFilter expr >>= lookupOf entity :=
  compileFilter_eq expr entity

theorem lookupOf_agrees (entity : Entity) {p q : Value}
    (same : compilePredicate p = compilePredicate q) :
    (lookupOf entity p).Agrees (lookupOf entity q) := by
  rw [lookupOf, lookupOf, ← same]
  refine (compilePredicate_yields p).agrees_bind fun answer h => ?_
  dsimp only
  split
  · exact .inr ⟨_, _, rfl, rfl, rfl⟩
  · rw [Lookup.make_eq _ _ (h.areOptions.set (isOption_text _ (by decide)))]
    exact (Outcome.yields_ok trivial : Outcome.Yields _ fun _ => True).agrees_self

theorem compilePredicate_single (p : Value) :
    compilePredicate (.all [p]) = compilePredicate p := by
  rw [compilePredicate]
  simp only [compileRest]
  cases compilePredicate p <;> rfl

theorem compileFilter_agrees {mapping : Value} {entries : Entries}
    (given : mapping.entries? = some entries) (nonempty : entries ≠ [])
    (plain : ∀ e ∈ entries, e.1.isPlainView = true)
    (filled : ∀ e ∈ entries, e.2.isEmptyCondition = false) (entity : Entity) :
    (compileFilter mapping entity).Agrees
      (compileFilter (.tuple (.str "and" :: triples entries)) entity) := by
  have several := triples_ne_nil nonempty filled
  have parsed := Outcome.Yields.mapM (triples_yield plain)
  rw [compileFilter_parsed, compileFilter_parsed, parseFilter_entries given,
    mapPredicate_eq mapping plain filled, parseFilter_conjunction several, bind_assoc,
    map_eq_pure_bind, bind_assoc]
  refine parsed.agrees_bind fun ps length => ?_
  match ps with
  | [] => exact absurd (List.length_eq_zero_iff.1 length.symm) several
  | [p] => exact lookupOf_agrees entity (compilePredicate_single p).symm
  | p :: q :: rest => exact lookupOf_agrees entity rfl

theorem comparison_keys (view : Value) {value : Value} (listed : value.isKeys = true) :
    ∃ items, value.items? = some items ∧
      comparison view "in" value = .ok (.isIn view items) := by
  have items : value.items?.isSome = true := by cases value <;> first | exact listed | rfl
  obtain ⟨items, found⟩ := Option.isSome_iff_exists.1 items
  refine ⟨items, found, ?_⟩
  unfold comparison
  rw [if_neg (by decide), if_pos rfl]
  split
  · cases listed
  · cases listed
  · rw [found]

theorem comparison_built {op : String} (view : Value) {value : Value} (known : op ∈ operators)
    (listed : op = "in" → value.isKeys = true) :
    ∃ p, comparison view op value = .ok p ∧ built view op value = .ok p := by
  simp only [operators, strictOperators, List.cons_append, List.nil_append, List.mem_cons,
    List.not_mem_nil, or_false] at known
  rcases known with rfl | rfl | rfl | rfl | rfl | rfl | rfl | rfl
  case inr.inr.inl =>
    obtain ⟨items, found, compared⟩ := comparison_keys view (listed rfl)
    refine ⟨_, compared, ?_⟩
    rw [built, if_pos rfl, isInItems, Value.items, found]
    rfl
  all_goals exact ⟨_, rfl, rfl⟩

theorem parseFilter_condition {view op value p : Value} (plain : view.isPlainView = true)
    (known : operatorName op ∈ operators)
    (compared : comparison view (operatorName op) value = .ok p) :
    parseFilter (.map [(view, .map [(op, value)])]) = .ok p := by
  have conditions : isConditions [(op, value)] = true := by simpa [isConditions] using known
  have triple : triples [(view, .map [(op, value)])] = [.tuple [view, op, value]] := by
    simp [triples, entryTriples, entries?, conditions]
  have filled : ∀ e ∈ [(view, Value.map [(op, value)])], e.2.isEmptyCondition = false := by
    simp [isEmptyCondition, entries?]
  rw [parseFilter_entries rfl, mapPredicate_eq _ (by simpa using plain) filled, triple,
    List.mapM_cons, parseFilter_triple plain, compared]
  rfl

/-- A filter map compiles as the conjunction of its triples does: to the same lookup, or
refused for the same reason.  A map with an empty condition is always refused.  One
comparison is one predicate, as a triple, as a map, and by an operator on a reference. -/
theorem compileFilter_spellings :
    (∀ mapping entries, mapping.entries? = some entries → entries ≠ [] →
      (∀ e ∈ entries, e.1.isPlainView = true) →
      ((∀ e ∈ entries, e.2.isEmptyCondition = false) → ∀ entity,
        (compileFilter mapping entity).Agrees
          (compileFilter (.tuple (.str "and" :: triples entries)) entity)) ∧
      ((∃ e ∈ entries, e.2.isEmptyCondition = true) →
        ∃ refusal, parseFilter mapping = refuse refusal)) ∧
    ∀ view op value : Value, view.isPlainView = true → operatorName op ∈ operators →
      (operatorName op = "in" → value.isKeys = true) →
      ∃ p, parseFilter (.tuple [view, op, value]) = .ok p ∧
        parseFilter (.map [(view, .map [(op, value)])]) = .ok p ∧
        built view (operatorName op) value = .ok p := by
  refine ⟨fun mapping entries given nonempty plain => ⟨?_, ?_⟩, ?_⟩
  · exact fun filled entity => compileFilter_agrees given nonempty plain filled entity
  · rintro ⟨e, mem, empty⟩
    rw [parseFilter_entries given]
    exact mapPredicate_empty mapping mem empty
  · intro view op value plain known listed
    obtain ⟨p, compared, build⟩ := comparison_built view known listed
    exact ⟨p, (parseFilter_triple plain op value).trans compared,
      parseFilter_condition plain known compared, build⟩

open Articles

/-- Two bounds on one view in mixed letter case, an object as a key, and a set of keys. -/
theorem compileFilter_spellings_of_titles :
    let title : Value := .str "by_title"
    let bounds : Value := .map [(.str ">=", .str "a"), (.str "<=", .str "c")]
    let visits : Value := .map [(.str "visits", .int 1)]
    let several : Value := .list [.str "a", .str "b"]
    (compileFilter (.map [(title, bounds)]) entity).Agrees
        (compileFilter (.tuple [.str "and", .tuple [title, .str ">=", .str "a"],
          .tuple [title, .str "<=", .str "c"]]) entity) ∧
      (compileFilter (.readOnly [(.str "by_stats", visits)]) entity).Agrees
        (compileFilter (.tuple [.str "and", .tuple [.str "by_stats", .str "==", visits]])
          entity) ∧
      (∃ refusal, parseFilter (.map [(title, bounds), (.str "by_stats", .map [])]) =
        refuse refusal) ∧
      ∃ p, parseFilter (.tuple [title, .str "IN", several]) = .ok p ∧
        parseFilter (.map [(title, .map [(.str "IN", several)])]) = .ok p ∧
        built title "in" several = .ok p := by
  intro title bounds visits several
  have plain : title.isPlainView = true := by decide
  have stats : (Value.str "by_stats").isPlainView = true := by decide
  have word : operatorName (.str "IN") = "in" := by decide
  have single := (compileFilter_spellings.1 (.map [(title, bounds)]) _ rfl (by simp)
    (by simpa using plain)).1 (by simp [isEmptyCondition, entries?, bounds]) entity
  have object := (compileFilter_spellings.1 (.readOnly [(.str "by_stats", visits)]) _ rfl
    (by simp) (by simpa using stats)).1 (by simp [isEmptyCondition, entries?, visits]) entity
  have empty := (compileFilter_spellings.1
    (.map [(title, bounds), (.str "by_stats", .map [])]) _ rfl (by simp)
    (by simp [plain, stats])).2 (by simp [isEmptyCondition, entries?])
  have among := compileFilter_spellings.2 title (.str "IN") several plain
    (by rw [word]; decide) (fun _ => rfl)
  rw [word] at among
  exact ⟨single, object, empty, among⟩

end DocMapper
