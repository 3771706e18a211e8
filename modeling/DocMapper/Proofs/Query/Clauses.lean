import DocMapper.Proofs.Query.Compile

/-!
# Clauses of filters

A filter conjoins clauses: triples, maps and predicates.  It parses to the leaves of its
clauses, each on a view that a clause names.  A clause may name a view by a reference; with
the names in place of the references it parses alike, unless a reference is a key of a map
or hides a word that heads another kind of tuple.
-/

namespace DocMapper

namespace Value

mutual

def conjuncts : Value → List Value
  | .tuple (head :: operands) =>
      if headWord head = "and" then conjunctsOf operands else [.tuple (head :: operands)]
  | expr => [expr]
termination_by structural x => x

def conjunctsOf : List Value → List Value
  | [] => []
  | expr :: rest => conjuncts expr ++ conjunctsOf rest
termination_by structural x => x

end

def view? : Value → Option Value
  | .eq view _ | .isIn view _ | .atLeast view _ | .atMost view _ | .compare view _ _ =>
      some view
  | _ => none

def isViewName : Value → Bool
  | .viewRef name => name.isText
  | view => view.isText

/-- A triple, a map, or a predicate on views named by texts. -/
inductive IsClause : Value → Prop
  | triple (head op value : Value) (single : headWord head ≠ "and")
      (named : head.isViewName = true) : IsClause (.tuple [head, op, value])
  | map (entries : Entries) (named : ∀ e ∈ entries, e.1.isViewName = true) :
      IsClause (.map entries)
  | readOnly (entries : Entries) (named : ∀ e ∈ entries, e.1.isViewName = true) :
      IsClause (.readOnly entries)
  | predicate (p : Value) (isPredicate : p.isPredicate = true)
      (texts : ∀ leaf ∈ p.leaves, ∃ view, leaf.view? = some view ∧ view.isText = true) :
      IsClause p

def IsFilter (expr : Value) : Prop := ∀ clause ∈ expr.conjuncts, IsClause clause

def keys (clause : Value) : List Value := (clause.entries?.getD []).map Prod.fst

def head? : Value → Option Value
  | .tuple (head :: _) => some head
  | _ => none

def KeyedByName (expr : Value) : Prop :=
  ∀ clause ∈ expr.conjuncts, ∀ key ∈ clause.keys, key.isViewRef = false

/-- No triple is headed by a reference to one of the words that head other tuples. -/
def HeadedByName (expr : Value) : Prop :=
  ∀ clause ∈ expr.conjuncts, ∀ head ∈ clause.head?, head.isViewRef = true →
    headWord head.referent ∉ ["and", "or"]

def keysByName (entries : Entries) : Entries := entries.map fun e => (e.1.referent, e.2)

mutual

def byNames : Value → Value
  | .tuple (head :: operands) =>
      if headWord head = "and" then .tuple (head :: allByNames operands)
      else .tuple (head.referent :: operands)
  | .map entries => .map (keysByName entries)
  | .readOnly entries => .readOnly (keysByName entries)
  | expr => expr
termination_by structural x => x

def allByNames : List Value → List Value
  | [] => []
  | expr :: rest => byNames expr :: allByNames rest
termination_by structural x => x

end

theorem isViewName_iff {view : Value} :
    view.isViewName = true ↔ ∃ s, view = .str s ∨ view = .viewRef (.str s) := by
  cases view with
  | viewRef name => simp [isViewName, isText_iff]
  | _ => simp [isViewName, isText]

theorem isText_of_isViewName {view : Value} (named : view.isViewName = true)
    (plain : view.isViewRef = false) : view.isText = true := by
  obtain ⟨s, rfl | rfl⟩ := isViewName_iff.1 named
  · rfl
  · cases plain

theorem isViewRef_of_isText {view : Value} (text : view.isText = true) :
    view.isViewRef = false := by
  obtain ⟨s, rfl⟩ := isText_iff.1 text
  rfl

theorem isViewName_of_isText {view : Value} (text : view.isText = true) :
    view.isViewName = true := by
  obtain ⟨s, rfl⟩ := isText_iff.1 text
  rfl

theorem referent_of_isText {view : Value} (text : view.isText = true) :
    view.referent = view := by
  obtain ⟨s, rfl⟩ := isText_iff.1 text
  rfl

theorem isText_referent {view : Value} (named : view.isViewName = true) :
    view.referent.isText = true := by
  obtain ⟨s, rfl | rfl⟩ := isViewName_iff.1 named <;> rfl

theorem eq_of_not_differs {a b : Value} (ha : a.isViewName = true) (hb : b.isViewName = true)
    (h : a.differs b = false) : a = b := by
  obtain ⟨refs, -⟩ := Bool.or_eq_false_iff.1 h
  obtain ⟨plainA, plainB⟩ := Bool.or_eq_false_iff.1 refs
  have texts := differs_of_text (isText_of_isViewName ha plainA) (isText_of_isViewName hb plainB)
  by_contra ne
  rw [texts.2 ne] at h
  cases h

theorem allByNames_eq (exprs : List Value) : allByNames exprs = exprs.map byNames := by
  induction exprs with
  | nil => rfl
  | cons expr rest ih => rw [allByNames, ih, List.map_cons]

theorem leavesOf_eq (ps : List Value) : leavesOf ps = ps.flatMap leaves := by
  induction ps with
  | nil => rfl
  | cons p ps ih => rw [leavesOf, ih, List.flatMap_cons]

def IsOn (view p : Value) : Prop := p.leaves = [p] ∧ p.view? = some view

theorem leavesOf_singles {ps : List Value} (singles : ∀ p ∈ ps, p.leaves = [p]) :
    leavesOf ps = ps := by
  rw [leavesOf_eq, List.flatMap_congr singles, List.flatMap_singleton']

theorem comparison_isOn {view value p : Value} {op : String}
    (h : comparison view op value = .ok p) : IsOn view p := by
  unfold comparison at h
  split_ifs at h
  · cases h
    exact ⟨rfl, rfl⟩
  · split at h
    · cases h
    · cases h
    · split at h <;> cases h
      exact ⟨rfl, rfl⟩
  · cases h
    exact ⟨rfl, rfl⟩
  · cases h
    exact ⟨rfl, rfl⟩
  · cases h
    exact ⟨rfl, rfl⟩
  · cases h

theorem entryPredicates_isOn {clause view condition : Value} {parts : List Value}
    (h : entryPredicates clause view condition = .ok parts) :
    parts ≠ [] ∧ ∀ p ∈ parts, IsOn view p := by
  have whole : ∀ {parts}, Except.ok [Value.eq view condition] = (.ok parts : Outcome _) →
      parts ≠ [] ∧ ∀ p ∈ parts, IsOn view p := by
    intro parts h
    cases h
    simp [IsOn, leaves, view?]
  unfold entryPredicates at h
  split at h
  · next conditions _ =>
    split_ifs at h with operators empty
    · cases h
    · obtain ⟨built, comes⟩ := Outcome.mem_of_mapM h
      refine ⟨?_, fun p mem => ?_⟩
      · obtain ⟨c, rest, rfl⟩ := List.exists_cons_of_ne_nil (mt List.isEmpty_iff.2 empty)
        obtain ⟨p, mem, -⟩ := built c List.mem_cons_self
        exact List.ne_nil_of_mem mem
      · obtain ⟨c, -, compared⟩ := comes p mem
        exact comparison_isOn compared
    · exact whole h
  · exact whole h

theorem mapPredicate_views {clause q : Value} {entries : Entries}
    (h : mapPredicate clause entries = .ok q) :
    (∀ leaf ∈ q.leaves, ∃ e ∈ entries, leaf.view? = some e.1) ∧
      ∀ e ∈ entries, ∃ leaf ∈ q.leaves, leaf.view? = some e.1 := by
  obtain ⟨parts, mapped, h⟩ := Outcome.bind_eq_ok.1 h
  obtain ⟨built, comes⟩ := Outcome.mem_of_mapM mapped
  have placed : ∀ p ∈ parts.flatten, ∃ e ∈ entries, IsOn e.1 p := by
    intro p mem
    obtain ⟨part, listed, mem⟩ := List.mem_flatten.1 mem
    obtain ⟨e, given, predicates⟩ := comes part listed
    exact ⟨e, given, (entryPredicates_isOn predicates).2 p mem⟩
  have flat : q.leaves = parts.flatten := by
    split at h
    · cases h
    · next part single =>
      cases h
      obtain ⟨e, -, on⟩ := placed q (single ▸ List.mem_cons_self)
      rw [single, on.1]
    · cases h
      exact leavesOf_singles fun p mem => by
        obtain ⟨e, -, on⟩ := placed p mem
        exact on.1
  rw [flat]
  constructor
  · intro leaf mem
    obtain ⟨e, given, on⟩ := placed leaf mem
    exact ⟨e, given, on.2⟩
  · intro e given
    obtain ⟨part, listed, predicates⟩ := built e given
    obtain ⟨nonempty, on⟩ := entryPredicates_isOn predicates
    obtain ⟨p, mem⟩ := List.exists_mem_of_ne_nil part nonempty
    exact ⟨p, List.mem_flatten_of_mem listed mem, (on p mem).2⟩

theorem conjunctsOf_eq (exprs : List Value) : conjunctsOf exprs = exprs.flatMap conjuncts := by
  induction exprs with
  | nil => rfl
  | cons expr rest ih => rw [conjunctsOf, ih, List.flatMap_cons]

theorem parseFilters_eq (exprs : List Value) : parseFilters exprs = exprs.mapM parseFilter := by
  induction exprs with
  | nil => rfl
  | cons expr rest ih => rw [parseFilters, ih, List.mapM_cons]

theorem conjuncts_conj {head : Value} (operands : List Value) (conj : headWord head = "and") :
    (Value.tuple (head :: operands)).conjuncts = operands.flatMap conjuncts := by
  rw [conjuncts, if_pos conj, conjunctsOf_eq]

theorem byNames_conj {head : Value} (operands : List Value) (conj : headWord head = "and") :
    (Value.tuple (head :: operands)).byNames = .tuple (head :: operands.map byNames) := by
  rw [byNames, if_pos conj, allByNames_eq]

theorem parseFilter_conj {head : Value} (operands : List Value) (conj : headWord head = "and") :
    parseFilter (.tuple (head :: operands)) =
      if operands.isEmpty then refuse (.loneAnd (.tuple [head]))
      else Value.all <$> operands.mapM parseFilter := by
  rw [← parseFilters_eq, parseFilter.eq_def]
  cases operands <;> simp only [if_pos conj] <;> rfl

theorem conjuncts_induction {motive : Value → Prop}
    (single : ∀ expr, expr.conjuncts = [expr] → motive expr)
    (conj : ∀ head operands, headWord head = "and" → (∀ expr ∈ operands, motive expr) →
      motive (.tuple (head :: operands))) (expr : Value) : motive expr := by
  by_cases split : ∃ head operands, expr = .tuple (head :: operands) ∧ headWord head = "and"
  · obtain ⟨head, operands, rfl, word⟩ := split
    refine conj head operands word fun operand mem => ?_
    have := List.sizeOf_lt_of_mem mem
    exact conjuncts_induction single conj operand
  · refine single expr ?_
    cases expr with
    | tuple items =>
        cases items with
        | nil => rfl
        | cons head operands =>
            rw [conjuncts, if_neg fun word => split ⟨head, operands, rfl, word⟩]
    | _ => rfl
termination_by sizeOf expr
decreasing_by
  subst_vars
  simp
  omega

/-- A filter parses to the leaves of its conjuncts.  The map `f` is applied to the
conjuncts before they are parsed. -/
theorem parseFilter_conjuncts {f : Value → Value}
    (through : ∀ head operands, headWord head = "and" →
      f (.tuple (head :: operands)) = .tuple (head :: operands.map f)) {expr p : Value}
    (h : parseFilter (f expr) = .ok p) :
    (∀ leaf ∈ p.leaves, ∃ clause ∈ expr.conjuncts, ∃ q,
      parseFilter (f clause) = .ok q ∧ leaf ∈ q.leaves) ∧
    ∀ clause ∈ expr.conjuncts, ∃ q, parseFilter (f clause) = .ok q ∧ q.leaves ⊆ p.leaves := by
  induction expr using conjuncts_induction generalizing p with
  | single expr single =>
      simp only [single, List.mem_singleton, exists_eq_left, forall_eq]
      exact ⟨fun leaf mem => ⟨p, h, mem⟩, p, h, List.Subset.refl _⟩
  | conj head operands word ih =>
      rw [through head operands word, parseFilter_conj _ word] at h
      split_ifs at h
      · cases h
      · obtain ⟨ps, parsed, h⟩ := Outcome.bind_eq_ok.1 h
        cases h
        obtain ⟨built, comes⟩ := Outcome.mem_of_mapM parsed
        have flat : (Value.all ps).leaves = ps.flatMap leaves := leavesOf_eq ps
        simp only [conjuncts_conj operands word, List.mem_flatMap, flat]
        constructor
        · rintro leaf ⟨p, listed, mem⟩
          obtain ⟨_, given, hp⟩ := comes p listed
          obtain ⟨expr, operand, rfl⟩ := List.mem_map.1 given
          obtain ⟨clause, found, q, hq, mem⟩ := (ih expr operand hp).1 leaf mem
          exact ⟨clause, ⟨expr, operand, found⟩, q, hq, mem⟩
        · rintro clause ⟨expr, operand, found⟩
          obtain ⟨p, listed, hp⟩ := built (f expr) (List.mem_map_of_mem operand)
          obtain ⟨q, hq, sub⟩ := (ih expr operand hp).2 clause found
          exact ⟨q, hq, fun leaf mem => List.mem_flatMap.2 ⟨p, listed, sub mem⟩⟩

/-! ## Views of parsed filters -/

theorem keys_predicate {p : Value} (h : p.isPredicate = true) : p.keys = [] := by
  cases p <;> first | rfl | cases h

theorem parseFilter_predicate {p : Value} (h : p.isPredicate = true) :
    parseFilter p = .ok p := by
  cases p <;> first | rfl | cases h

theorem parseFilter_text {s : String} (op value : Value) (single : headWord (.str s) ≠ "and") :
    parseFilter (.tuple [.str s, op, value]) =
      if headWord (.str s) = "or" then refuse (.alternatives (.tuple [.str s, op, value]))
      else comparison (.str s) (operatorName op) value := by
  rw [parseFilter.eq_def]
  simp only [if_neg single]
  rfl

theorem parseFilter_triple {head op value q : Value} (named : head.isViewName = true)
    (single : headWord head ≠ "and") (h : parseFilter (.tuple [head, op, value]) = .ok q) :
    comparison head.referent (operatorName op) value = .ok q := by
  obtain ⟨s, rfl | rfl⟩ := isViewName_iff.1 named
  · rw [parseFilter_text op value single] at h
    split_ifs at h
    · cases h
    · exact h
  · exact h

/-- The leaf is on a view named by a text, or on a key of the clause. -/
def Placed (clause leaf : Value) : Prop :=
  ∃ view, leaf.view? = some view ∧
    (view.isText = true ∨ view ∈ clause.keys ∧ view.isViewName = true)

theorem mapPredicate_placed {clause q : Value} {entries : Entries}
    (given : clause.entries? = some entries) (named : ∀ e ∈ entries, e.1.isViewName = true)
    (h : mapPredicate clause entries = .ok q) :
    (∀ leaf ∈ q.leaves, clause.Placed leaf) ∧
      ∀ key ∈ clause.keys, ∃ leaf ∈ q.leaves, leaf.view? = some key := by
  obtain ⟨comes, reached⟩ := mapPredicate_views h
  have listed : clause.keys = entries.map Prod.fst := by rw [keys, given, Option.getD_some]
  constructor
  · intro leaf mem
    obtain ⟨e, given, on⟩ := comes leaf mem
    exact ⟨e.1, on, .inr ⟨listed ▸ List.mem_map_of_mem given, named e given⟩⟩
  · intro key mem
    rw [listed] at mem
    obtain ⟨e, given, rfl⟩ := List.mem_map.1 mem
    exact reached e given

theorem IsClause.placed {clause q : Value} (h : IsClause clause)
    (parsed : parseFilter clause = .ok q) :
    (∀ leaf ∈ q.leaves, clause.Placed leaf) ∧
      ∀ key ∈ clause.keys, ∃ leaf ∈ q.leaves, leaf.view? = some key := by
  cases h with
  | triple head op value single named =>
      obtain ⟨alone, on⟩ := comparison_isOn (parseFilter_triple named single parsed)
      rw [alone]
      refine ⟨fun leaf mem => ?_, nofun⟩
      rw [List.mem_singleton.1 mem]
      exact ⟨_, on, .inl (isText_referent named)⟩
  | map entries named => exact mapPredicate_placed rfl named parsed
  | readOnly entries named => exact mapPredicate_placed rfl named parsed
  | predicate p isPredicate texts =>
      rw [parseFilter_predicate isPredicate] at parsed
      cases parsed
      rw [keys_predicate isPredicate]
      refine ⟨fun leaf mem => ?_, nofun⟩
      obtain ⟨view, on, text⟩ := texts leaf mem
      exact ⟨view, on, .inl text⟩

theorem keysByName_texts {entries : Entries} (texts : ∀ e ∈ entries, e.1.isText = true) :
    keysByName entries = entries := by
  have same : ∀ e ∈ entries, (e.1.referent, e.2) = e :=
    fun e mem => Prod.ext (referent_of_isText (texts e mem)) rfl
  rw [keysByName, List.map_congr_left same, List.map_id']

theorem isText_keysByName {entries : Entries}
    (named : ∀ e ∈ entries, e.1.isViewName = true) :
    ∀ e ∈ keysByName entries, e.1.isText = true := by
  intro e mem
  obtain ⟨e, given, rfl⟩ := List.mem_map.1 mem
  exact isText_referent (named e given)

theorem IsClause.conjuncts_eq {clause : Value} (h : IsClause clause) :
    clause.conjuncts = [clause] := by
  cases h with
  | triple head op value single named => rw [conjuncts, if_neg single]
  | map entries named => rfl
  | readOnly entries named => rfl
  | predicate p isPredicate texts => cases clause <;> first | rfl | cases isPredicate

theorem byNames_triple {head : Value} (op value : Value) (single : headWord head ≠ "and") :
    (Value.tuple [head, op, value]).byNames = .tuple [head.referent, op, value] := by
  rw [byNames, if_neg single]

theorem byNames_predicate {p : Value} (h : p.isPredicate = true) : p.byNames = p := by
  cases p <;> first | rfl | cases h

theorem IsClause.parseFilter_byNames {clause : Value} (h : IsClause clause)
    (keyed : clause.KeyedByName) (headed : clause.HeadedByName) :
    parseFilter clause.byNames = parseFilter clause := by
  have same : ∀ entries : Entries, (∀ e ∈ entries, e.1.isViewName = true) →
      clause.entries? = some entries → keysByName entries = entries := by
    intro entries named given
    refine keysByName_texts fun e mem => isText_of_isViewName (named e mem) ?_
    refine keyed clause (h.conjuncts_eq ▸ List.mem_singleton_self _) e.1 ?_
    rw [keys, given]
    exact List.mem_map_of_mem mem
  cases h with
  | triple head op value single named =>
      rw [byNames_triple op value single]
      obtain ⟨s, rfl | rfl⟩ := isViewName_iff.1 named
      · rfl
      · have word : headWord (.str s) ∉ ["and", "or"] := by
          refine headed (.tuple [.viewRef (.str s), op, value]) ?_ (.viewRef (.str s)) rfl rfl
          rw [conjuncts, if_neg single]
          exact List.mem_singleton_self _
        simp only [List.mem_cons, List.not_mem_nil, or_false, not_or] at word
        change parseFilter (.tuple [.str s, op, value]) = _
        rw [parseFilter_text op value word.1, if_neg word.2]
        rfl
  | map entries named => rw [byNames, same entries named rfl]
  | readOnly entries named => rw [byNames, same entries named rfl]
  | predicate p isPredicate texts => rw [byNames_predicate isPredicate]

theorem parseFilter_byNames {expr : Value} (filter : expr.IsFilter) (keyed : expr.KeyedByName)
    (headed : expr.HeadedByName) : parseFilter expr.byNames = parseFilter expr := by
  induction expr using conjuncts_induction with
  | single expr single =>
      exact (filter expr (single ▸ List.mem_singleton_self _)).parseFilter_byNames keyed headed
  | conj head operands word ih =>
      have part : ∀ expr ∈ operands, ∀ clause ∈ expr.conjuncts,
          clause ∈ (Value.tuple (head :: operands)).conjuncts := by
        intro expr operand clause mem
        rw [conjuncts_conj operands word]
        exact List.mem_flatMap.2 ⟨expr, operand, mem⟩
      have each : ∀ expr ∈ operands, parseFilter expr.byNames = parseFilter expr :=
        fun expr operand => ih expr operand
          (fun clause mem => filter clause (part expr operand clause mem))
          (fun clause mem => keyed clause (part expr operand clause mem))
          (fun clause mem => headed clause (part expr operand clause mem))
      have alike : ∀ expr ∈ operands, (parseFilter ∘ byNames) expr = parseFilter expr := each
      rw [byNames_conj operands word, parseFilter_conj _ word, parseFilter_conj _ word,
        List.mapM_map, List.isEmpty_map, Outcome.mapM_congr alike]

/-! ## Words that head other tuples -/

theorem joinTexts_cons_cons (separator text next : String) (rest : List String) :
    joinTexts separator (text :: next :: rest) =
      text ++ separator ++ joinTexts separator (next :: rest) :=
  String.intercalate_cons_cons

theorem length_joinTexts (separator text : String) (texts : List String) :
    text.length ≤ (joinTexts separator (text :: texts)).length := by
  cases texts with
  | nil => exact Nat.le_of_eq (congrArg _ String.intercalate_singleton.symm)
  | cons next rest =>
      rw [joinTexts_cons_cons, String.length_append, String.length_append]
      omega

theorem longer {start : String} (rest : String) (long : 2 < start.length) :
    2 < (start ++ rest).length := by
  rw [String.length_append]
  omega

theorem length_text_tuple {items : List Value} (nonempty : items ≠ []) :
    2 < (Value.tuple items).text.length := by
  have brackets : "(".length = 1 ∧ ")".length = 1 ∧ ",)".length = 2 := ⟨rfl, rfl, rfl⟩
  have separator : ", ".length = 2 := rfl
  match items with
  | [] => exact absurd rfl nonempty
  | [head] =>
      have shown : (Value.tuple [head]).text = "(" ++ joinTexts ", " [head.display] ++ ",)" := rfl
      rw [shown, String.length_append, String.length_append]
      omega
  | head :: next :: rest =>
      have shown : (Value.tuple (head :: next :: rest)).text =
          "(" ++ joinTexts ", " (head.display :: next.display :: displayItems rest) ++ ")" := rfl
      rw [shown, joinTexts_cons_cons]
      simp only [String.length_append]
      omega

theorem length_text_map {entries : Entries} (nonempty : entries ≠ []) :
    2 < (Value.map entries).text.length := by
  have separator : ": ".length = 2 := rfl
  have brace : "\x7b".length = 1 := rfl
  match entries with
  | [] => exact absurd rfl nonempty
  | e :: rest =>
      have shown : (Value.map (e :: rest)).text = "\x7b" ++
          joinTexts ", " ((e.1.display ++ ": " ++ e.2.display) :: displayEntries rest) ++
            "\x7d" := rfl
      have first := length_joinTexts ", " (e.1.display ++ ": " ++ e.2.display)
        (displayEntries rest)
      rw [shown]
      simp only [String.length_append] at first ⊢
      omega

theorem length_text_predicate {p : Value} (predicate : p.isPredicate = true) :
    2 < p.text.length := by
  cases p with
  | eq view value =>
      have start : 2 < "Eq(view=".length := by decide
      exact longer _ (longer _ (longer _ (longer _ start)))
  | isIn view values =>
      have start : 2 < "In(view=".length := by decide
      exact longer _ (longer _ (longer _ (longer _ start)))
  | atLeast view value =>
      have start : 2 < "Gte(view=".length := by decide
      exact longer _ (longer _ (longer _ (longer _ start)))
  | atMost view value =>
      have start : 2 < "Lte(view=".length := by decide
      exact longer _ (longer _ (longer _ (longer _ start)))
  | compare view op value =>
      have start : 2 < "Compare(view=".length := by decide
      exact longer _ (longer _ (longer _ (longer _ (longer _ (longer _ start)))))
  | all parts =>
      have start : 2 < "And(predicates=(".length := by decide
      exact longer _ (longer _ start)
  | _ => cases predicate

theorem length_text_of_parseFilter {expr p : Value} (h : parseFilter expr = .ok p) :
    2 < expr.text.length := by
  cases expr with
  | tuple items =>
      refine length_text_tuple ?_
      rintro rfl
      rw [parseFilter.eq_def] at h
      cases h
  | map entries =>
      refine length_text_map ?_
      rintro rfl
      cases h
  | readOnly entries =>
      have start : 2 < "mappingproxy(\x7b".length := by decide
      exact longer _ (longer _ start)
  | eq | isIn | atLeast | atMost | compare | all => exact length_text_predicate rfl
  | _ => cases h

theorem length_lowerFrom (before cs : List Char) :
    cs.length ≤ (Text.lowerFrom before cs).length := by
  induction cs generalizing before with
  | nil => exact Nat.zero_le _
  | cons c rest ih =>
      have tail := ih (c :: before)
      rw [Text.lowerFrom]
      split_ifs <;> simp <;> omega

theorem length_lower (s : String) : s.length ≤ (Text.lower s).length := by
  rw [Text.lower, String.length_ofList, ← String.length_toList]
  exact length_lowerFrom [] s.toList

theorem mem_operators {view value p : Value} {op : String}
    (h : comparison view op value = .ok p) : op ∈ operators := by
  unfold comparison at h
  unfold operators
  split_ifs at h with eq among atLeast atMost strict
  · rcases eq with rfl | rfl <;> simp
  · simp [among]
  · simp [atLeast]
  · simp [atMost]
  · exact List.mem_append_right _ strict
  · cases h

theorem parseFilter_operator {view op value p q : Value}
    (h : comparison view (operatorName op) value = .ok p) : parseFilter op ≠ .ok q := by
  intro parsed
  have short : ∀ op ∈ operators, op.length ≤ 2 := by decide
  have long := length_text_of_parseFilter parsed
  have lower := length_lower op.text
  have := short _ (mem_operators h)
  rw [operatorName] at this
  omega

theorem IsClause.headed {clause q q' : Value} (h : IsClause clause)
    (parsed : parseFilter clause = .ok q) (renamed : parseFilter clause.byNames = .ok q') :
    clause.HeadedByName := by
  rw [HeadedByName, h.conjuncts_eq]
  rintro clause (_ | ⟨_, ⟨⟩⟩) head found ref word
  cases h with
  | triple head' op value single named =>
      cases found
      obtain ⟨s, rfl | rfl⟩ := isViewName_iff.1 named
      · cases ref
      · change parseFilter (.tuple [.str s, op, value]) = .ok q' at renamed
        have word : headWord (.str s) = "and" ∨ headWord (.str s) = "or" := List.mem_pair.1 word
        rcases word with conj | alternatives
        · rw [parseFilter_conj _ conj] at renamed
          obtain ⟨ps, each, -⟩ := Outcome.bind_eq_ok.1 renamed
          obtain ⟨p, -, operand⟩ := (Outcome.mem_of_mapM each).1 op List.mem_cons_self
          exact parseFilter_operator parsed operand
        · have single : headWord (.str s) ≠ "and" := by
            rw [alternatives]
            decide
          rw [parseFilter_text op value single, if_pos alternatives] at renamed
          cases renamed
  | map entries named => cases found
  | readOnly entries named => cases found
  | predicate p isPredicate texts => cases clause <;> first | cases found | cases isPredicate

theorem IsClause.renamed {clause : Value} (h : IsClause clause) (headed : clause.HeadedByName) :
    IsClause clause.byNames ∧ ∀ key ∈ clause.byNames.keys, key.isViewRef = false := by
  have object : ∀ entries : Entries, (∀ e ∈ entries, e.1.isViewName = true) →
      (∀ e ∈ keysByName entries, e.1.isViewName = true) ∧
        ∀ key ∈ (keysByName entries).map Prod.fst, key.isViewRef = false := by
    intro entries named
    have texts := isText_keysByName named
    refine ⟨fun e mem => isViewName_of_isText (texts e mem), fun key mem => ?_⟩
    obtain ⟨e, given, rfl⟩ := List.mem_map.1 mem
    exact isViewRef_of_isText (texts e given)
  cases h with
  | triple head op value single named =>
      rw [byNames_triple op value single]
      obtain ⟨s, rfl | rfl⟩ := isViewName_iff.1 named
      · exact ⟨.triple _ op value single rfl, nofun⟩
      · have word := headed (.tuple [.viewRef (.str s), op, value])
          (by rw [conjuncts, if_neg single]; exact List.mem_singleton_self _) (.viewRef (.str s))
          rfl rfl
        refine ⟨.triple _ op value (fun conj => word ?_) rfl, nofun⟩
        exact List.mem_pair.2 (.inl conj)
  | map entries named => exact ⟨.map _ (object entries named).1, (object entries named).2⟩
  | readOnly entries named =>
      exact ⟨.readOnly _ (object entries named).1, (object entries named).2⟩
  | predicate p isPredicate texts =>
      rw [byNames_predicate isPredicate]
      exact ⟨.predicate _ isPredicate texts, keys_predicate isPredicate ▸ nofun⟩

theorem IsFilter.placed {expr p : Value} (filter : expr.IsFilter)
    (parsed : parseFilter expr = .ok p) :
    (∀ leaf ∈ p.leaves, ∃ clause ∈ expr.conjuncts, clause.Placed leaf) ∧
      ∀ clause ∈ expr.conjuncts, ∀ key ∈ clause.keys,
        ∃ leaf ∈ p.leaves, leaf.view? = some key := by
  obtain ⟨comes, built⟩ := parseFilter_conjuncts (f := id) (by simp) parsed
  constructor
  · intro leaf mem
    obtain ⟨clause, part, q, hq, mem⟩ := comes leaf mem
    exact ⟨clause, part, ((filter clause part).placed hq).1 leaf mem⟩
  · intro clause part key given
    obtain ⟨q, hq, sub⟩ := built clause part
    obtain ⟨leaf, mem, on⟩ := ((filter clause part).placed hq).2 key given
    exact ⟨leaf, sub mem, on⟩

def Named (leaf : Value) : Prop := ∃ view, leaf.view? = some view ∧ view.isViewName = true

theorem Placed.named {clause leaf : Value} (h : clause.Placed leaf) : leaf.Named := by
  obtain ⟨view, on, text | ⟨-, named⟩⟩ := h
  · exact ⟨view, on, isViewName_of_isText text⟩
  · exact ⟨view, on, named⟩

theorem Placed.text {clause leaf view : Value} (h : clause.Placed leaf)
    (keyed : ∀ key ∈ clause.keys, key.isViewRef = false) (on : leaf.view? = some view) :
    view.isText = true := by
  obtain ⟨view', on', text | ⟨key, named⟩⟩ := h
  all_goals
    obtain rfl : view = view' := Option.some.inj (on.symm.trans on')
  · exact text
  · exact isText_of_isViewName named (keyed view key)

end Value

end DocMapper
