import DocMapper.Proofs.Query.Shape
import DocMapper.Proofs.Value.Fields
import DocMapper.Query.Compile

/-!
# Options of compiled queries

Whatever a query compiles to, its lookup has every option once, under one of the names of
view options.  The documents are always asked for, and a set of keys is a tuple.  A predicate
that does not compile is refused.
-/

namespace DocMapper

open Value

namespace Outcome

variable {α β : Type} {outcome : Outcome α} {kind : α → Prop} {kind' : β → Prop}

def Yields (outcome : Outcome α) (kind : α → Prop) : Prop :=
  (∃ a, outcome = .ok a ∧ kind a) ∨ ∃ refusal, outcome = refuse refusal

theorem yields_ok {a : α} (h : kind a) : Yields (.ok a) kind := .inl ⟨a, rfl, h⟩

theorem yields_refuse (refusal : Refusal) : Yields (refuse refusal) kind := .inr ⟨refusal, rfl⟩

theorem Yields.weaken {kind' : α → Prop} (h : outcome.Yields kind)
    (sub : ∀ a, kind a → kind' a) : outcome.Yields kind' :=
  h.imp_left fun ⟨a, ok, ha⟩ => ⟨a, ok, sub a ha⟩

theorem Yields.bind {next : α → Outcome β} (h : outcome.Yields kind)
    (hnext : ∀ a, kind a → (next a).Yields kind') : (outcome >>= next).Yields kind' := by
  rcases h with ⟨a, rfl, ha⟩ | ⟨refusal, rfl⟩
  · exact hnext a ha
  · exact .inr ⟨refusal, rfl⟩

theorem Yields.foldlM {f : β → α → Outcome β} {xs : List α} {b : β}
    (hf : ∀ x ∈ xs, ∀ b, kind' b → (f b x).Yields kind') (hb : kind' b) :
    Yields (xs.foldlM f b) kind' := by
  induction xs generalizing b with
  | nil => exact yields_ok hb
  | cons x xs ih =>
      rw [List.foldlM_cons]
      obtain ⟨first, others⟩ := List.forall_mem_cons.1 hf
      exact (first b hb).bind fun b hb => ih others hb

end Outcome

def IsOption (name value : Value) : Prop :=
  name.isText = true ∧ (name = .str "keys" → ∃ keys, value = .tuple keys)

def AreOptions (options : Entries) : Prop := ∀ e ∈ options, IsOption e.1 e.2

theorem areOptions_single {name value : Value} (h : IsOption name value) :
    AreOptions [(name, value)] := by
  rintro e (_ | ⟨_, ⟨⟩⟩)
  exact h

theorem isOption_text {s : String} (value : Value) (other : s ≠ "keys") :
    IsOption (.str s) value :=
  ⟨rfl, fun keys => absurd (Value.str.inj keys) other⟩

theorem AreOptions.set {options : Entries} {name value : Value} (h : AreOptions options)
    (given : IsOption name value) : AreOptions (options.set name value) := by
  rintro ⟨k, v⟩ mem
  rcases Keyed.mem_set mem with mem | ⟨rfl, rfl | ⟨same, old, mem⟩⟩
  · exact h _ mem
  · exact given
  · rwa [eq_of_sameKey_texts (h _ mem).1 given.1 same]

theorem AreOptions.keys {options : Entries} {value : Value} (h : AreOptions options)
    (found : options.find? (.str "keys") = some value) : ∃ keys, value = .tuple keys := by
  obtain ⟨k, mem, same⟩ := Keyed.mem_of_find? found
  obtain ⟨text, tuple⟩ := h _ mem
  exact tuple (eq_of_sameKey_texts text rfl same)

/-- Options that are given once each, under the names. -/
structure OptionsUnder (names : List String) (options : Entries) : Prop where
  distinct : Keyed.Distinct options
  named : ∀ key ∈ options.map Prod.fst, ∃ name ∈ names, key = .str name
  areOptions : AreOptions options

namespace OptionsUnder

variable {names : List String} {options : Entries} {name : String} {value : Value}

theorem byText (h : OptionsUnder names options) : Keyed.ByText options :=
  ⟨fun e mem => (h.areOptions e mem).1, h.distinct⟩

theorem exists_name (h : OptionsUnder names options) {e : Value × Value} (mem : e ∈ options) :
    ∃ name ∈ names, e.1 = .str name :=
  h.named e.1 (List.mem_map_of_mem mem)

theorem single (mem : name ∈ names) (kind : IsOption (.str name) value) :
    OptionsUnder names [(.str name, value)] where
  distinct := List.pairwise_singleton ..
  named := List.forall_mem_singleton.2 ⟨name, mem, rfl⟩
  areOptions := areOptions_single kind

theorem set (h : OptionsUnder names options) (mem : name ∈ names)
    (kind : IsOption (.str name) value) : OptionsUnder names (options.set (.str name) value) where
  distinct := h.distinct.set _ value
  named key given := by
    obtain rfl | given := (h.byText.mem_keys_set rfl).1 given
    · exact ⟨name, mem, rfl⟩
    · exact h.named key given
  areOptions := h.areOptions.set kind

theorem mono {names' : List String} (h : OptionsUnder names options) (sub : names ⊆ names') :
    OptionsUnder names' options where
  distinct := h.distinct
  named key given := (h.named key given).imp fun _ => And.imp_left (sub ·)
  areOptions := h.areOptions

theorem mergeOption_yields (clause : Value) (h : OptionsUnder names options) (mem : name ∈ names)
    (kind : IsOption (.str name) value) :
    (mergeOption clause options (.str name) value).Yields (OptionsUnder names) := by
  unfold mergeOption
  split
  · exact Outcome.yields_ok (h.set mem kind)
  · next present found =>
    split_ifs with keys conflict
    · obtain rfl : name = "keys" := by rwa [same_str, beq_iff_eq] at keys
      obtain ⟨xs, rfl⟩ := h.areOptions.keys found
      obtain ⟨ys, rfl⟩ := kind.2 rfl
      rw [intersectKeys_tuple]
      exact Outcome.yields_ok (h.set mem ⟨rfl, fun _ => ⟨_, rfl⟩⟩)
    · exact Outcome.yields_refuse _
    · exact Outcome.yields_ok h

theorem mergeOptions_yields (clause : Value) {others : Entries} (h : OptionsUnder names options)
    (others' : OptionsUnder names others) :
    (mergeOptions clause options others).Yields (OptionsUnder names) := by
  refine (Outcome.Yields.foldlM (fun e mem merged h => ?_) h).bind fun merged h => ?_
  · obtain ⟨name, among, key⟩ := others'.exists_name mem
    have kind := others'.areOptions e mem
    rw [key] at kind ⊢
    exact h.mergeOption_yields clause among kind
  · dsimp only
    split
    · exact Outcome.yields_refuse _
    · exact Outcome.yields_ok h

end OptionsUnder

def anchorNames : List String := exactOptions ++ rangeOptions

mutual

theorem compilePredicate_yields : ∀ p : Value,
    (compilePredicate p).Yields fun answer => OptionsUnder anchorNames answer.2
  | .eq _ value => Outcome.yields_ok (.single (by decide) (isOption_text value (by decide)))
  | .isIn _ _ => Outcome.yields_ok (.single (by decide) ⟨rfl, fun _ => ⟨_, rfl⟩⟩)
  | .atLeast _ value => Outcome.yields_ok (.single (by decide) (isOption_text value (by decide)))
  | .atMost _ value => Outcome.yields_ok (.single (by decide) (isOption_text value (by decide)))
  | .all (first :: rest) => by
      rw [compilePredicate]
      refine (compilePredicate_yields first).bind fun (view, options) h => ?_
      exact (compileRest_yields _ view h rest).bind fun options h => Outcome.yields_ok h
  | .all [] | .compare .. | .null | .bool _ | .int _ | .float _ | .str _ | .bytes _ | .list _
  | .tuple _ | .map _ | .readOnly _ | .record .. | .recordType _ | .viewRef _ =>
      Outcome.yields_refuse _

theorem compileRest_yields (clause view : Value) : ∀ {options : Entries},
    OptionsUnder anchorNames options →
    ∀ rest, (compileRest clause view options rest).Yields (OptionsUnder anchorNames)
  | _, h, [] => Outcome.yields_ok h
  | options, h, child :: rest => by
      rw [compileRest]
      refine (compilePredicate_yields child).bind fun (childView, childOptions) hchild => ?_
      dsimp only
      split
      · exact Outcome.yields_refuse _
      · refine (h.mergeOptions_yields clause hchild).bind fun options h => ?_
        exact compileRest_yields clause view h rest

end

theorem Lookup.make_eq (design view : Value) {options : Entries} (h : AreOptions options) :
    Lookup.make design view options = .ok ⟨design, view, options⟩ := by
  rw [Lookup.make]
  split
  · next keys found =>
    obtain ⟨items, rfl⟩ := h.keys found
    change Except.ok (⟨design, view, options.set (.str "keys") (.tuple items)⟩ : Lookup) = _
    rw [Keyed.set_eq_self found]
  · rfl

def optionNames : List String := anchorNames ++ ["include_docs"]

structure AreLookupOptions (options : Entries) : Prop extends OptionsUnder optionNames options where
  documents : options.find? (.str "include_docs") = some (.bool true)

theorem OptionsUnder.with_documents {options : Entries} (h : OptionsUnder anchorNames options) :
    AreLookupOptions (options.set (.str "include_docs") (.bool true)) where
  toOptionsUnder := (h.mono (List.subset_append_left ..)).set (by decide)
    (isOption_text _ (by decide))
  documents := by simp

theorem compileQuery_options {query : Query} {entity : Entity} {lookup : Lookup}
    (compiled : compileQuery query entity = .ok lookup) : AreLookupOptions lookup.options := by
  rw [compileQuery] at compiled
  obtain ⟨_, -, compiled⟩ := Outcome.bind_eq_ok.1 compiled
  dsimp only at compiled
  split at compiled
  next =>
    cases compiled
    exact ⟨.single (by decide) (isOption_text _ (by decide)), rfl⟩
  next clause _ =>
    obtain ⟨⟨view, options⟩, predicate, compiled⟩ := Outcome.bind_eq_ok.1 compiled
    obtain ⟨answer, predicate', under⟩ | ⟨refusal, refused⟩ := compilePredicate_yields clause
    · cases predicate.symm.trans predicate'
      have documents := under.with_documents
      dsimp only at compiled
      split at compiled
      next => cases compiled
      next =>
        rw [Lookup.make_eq _ _ documents.areOptions] at compiled
        cases compiled
        exact documents
    · cases predicate.symm.trans refused
  next => cases compiled

end DocMapper
