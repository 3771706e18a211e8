import DocMapper.Proofs.Query.Shape

/-!
# Conjuncts of a query

A predicate tree is a conjunction of its leaves.  The leaves ask one view for a
shape if they are all of one kind, they name that view, and none of them excludes
another.
-/

namespace DocMapper

namespace Value

mutual

/-- A predicate tree over named views and JSON values. -/
def isTree : Value → Bool
  | .eq view value | .atLeast view value | .atMost view value =>
      view.isText && value.isJson
  | .isIn view values => view.isText && allJson values
  | .compare view op value => view.isText && op.isText && value.isJson
  | .all parts => allTrees parts
  | _ => false
termination_by structural x => x

def allTrees : List Value → Bool
  | [] => true
  | p :: rest => isTree p && allTrees rest
termination_by structural x => x

end

mutual

def leaves : Value → List Value
  | .all parts => leavesOf parts
  | p => [p]
termination_by structural x => x

def leavesOf : List Value → List Value
  | [] => []
  | p :: rest => leaves p ++ leavesOf rest
termination_by structural x => x

end

mutual

def isFilled : Value → Bool
  | .all parts => !parts.isEmpty && allFilled parts
  | _ => true
termination_by structural x => x

def allFilled : List Value → Bool
  | [] => true
  | p :: rest => isFilled p && allFilled rest
termination_by structural x => x

end

def AllSame (values : List Value) : Prop :=
  ∀ x ∈ values, ∀ y ∈ values, x.same y = true

theorem AllSame.across {x₀ y₀ x y : Value} {xs ys : List Value}
    (left : AllSame (x₀ :: xs)) (right : AllSame (y₀ :: ys))
    (hx : ∀ x ∈ x₀ :: xs, x.isJson = true) (hy : ∀ y ∈ y₀ :: ys, y.isJson = true)
    (heads : x₀.same y₀ = true) (mx : x ∈ x₀ :: xs) (my : y ∈ y₀ :: ys) :
    x.same y = true := by
  have first : x.same x₀ = true := left x mx x₀ (by simp)
  have last : y₀.same y = true := right y₀ (by simp) y my
  have middle : x.same y₀ = true :=
    same_trans (hx x mx) (hx x₀ (by simp)) (hy y₀ (by simp)) first heads
  exact same_trans (hx x mx) (hy y₀ (by simp)) (hy y my) middle last

theorem allSame_append {xs ys : List Value} (hx : allJson xs = true)
    (hy : allJson ys = true) :
    AllSame (xs ++ ys) ↔
      AllSame xs ∧ AllSame ys ∧ Shape.compatible xs.head? ys.head? = true := by
  rw [allJson_iff] at hx hy
  constructor
  · intro h
    refine ⟨?_, ?_, ?_⟩
    · exact fun x hx y hy =>
        h x (List.mem_append_left _ hx) y (List.mem_append_left _ hy)
    · exact fun x hx y hy =>
        h x (List.mem_append_right _ hx) y (List.mem_append_right _ hy)
    · cases xs with
      | nil => rfl
      | cons x xs =>
          cases ys with
          | nil => rfl
          | cons y ys => exact h x (by simp) y (by simp)
  · rintro ⟨left, right, heads⟩
    have across : ∀ x ∈ xs, ∀ y ∈ ys, x.same y = true := by
      intro x mx y my
      obtain ⟨x₀, xs, rfl⟩ := List.exists_cons_of_ne_nil (List.ne_nil_of_mem mx)
      obtain ⟨y₀, ys, rfl⟩ := List.exists_cons_of_ne_nil (List.ne_nil_of_mem my)
      exact left.across right hx hy heads mx my
    intro x mx y my
    rcases List.mem_append.1 mx with mx | mx <;> rcases List.mem_append.1 my with my | my
    · exact left x mx y my
    · exact across x mx y my
    · exact same_symm (hx y my) (hy x mx) (across y my x mx)
    · exact right x mx y my

theorem isAmong_congr {x y : Value} {items : List Value} (hx : x.isJson = true)
    (hy : y.isJson = true) (hi : allJson items = true) (h : x.same y = true) :
    x.isAmong items = y.isAmong items := by
  rw [allJson_iff] at hi
  rw [Bool.eq_iff_iff, isAmong_iff, isAmong_iff]
  constructor
  · rintro ⟨item, mem, same⟩
    exact ⟨item, mem, same_trans (hi item mem) hx hy same h⟩
  · rintro ⟨item, mem, same⟩
    exact ⟨item, mem, same_trans (hi item mem) hy hx same (same_symm hx hy h)⟩

theorem all_isAmong_congr {x y : Value} {others : List (List Value)} (hx : x.isJson = true)
    (hy : y.isJson = true) (ho : ∀ other ∈ others, allJson other = true)
    (h : x.same y = true) : others.all x.isAmong = others.all y.isAmong := by
  rw [Bool.eq_iff_iff, List.all_eq_true, List.all_eq_true]
  refine forall₂_congr fun other mem => ?_
  rw [isAmong_congr hx hy (ho other mem) h]

theorem isAmong_filter {x : Value} {keys : List Value} {others : List (List Value)}
    (hx : x.isJson = true) (hk : allJson keys = true)
    (ho : ∀ other ∈ others, allJson other = true) :
    x.isAmong (keys.filter fun key => others.all key.isAmong) =
      (x.isAmong keys && others.all x.isAmong) := by
  rw [allJson_iff] at hk
  have congr : ∀ key ∈ keys, key.same x = true →
      others.all key.isAmong = others.all x.isAmong :=
    fun key mem same => all_isAmong_congr (hk key mem) hx ho same
  rw [Bool.eq_iff_iff, Bool.and_eq_true, isAmong_iff, isAmong_iff]
  constructor
  · rintro ⟨key, mem, same⟩
    obtain ⟨mem, narrowed⟩ := List.mem_filter.1 mem
    exact ⟨⟨key, mem, same⟩, congr key mem same ▸ narrowed⟩
  · rintro ⟨⟨key, mem, same⟩, narrowed⟩
    exact ⟨key, List.mem_filter.2 ⟨mem, (congr key mem same).symm ▸ narrowed⟩, same⟩

end Value

/-! ## What leaves ask for -/

open Value

namespace Bound

def predicate (view : Value) : Bound × Value → Value
  | (.lower, value) => .atLeast view value
  | (.upper, value) => .atMost view value

def on (side : Bound) (bounds : List (Bound × Value)) : List Value :=
  bounds.filterMap fun b => if b.1 = side then some b.2 else none

end Bound

/-- The leaves ask a view for a shape: for the one key that they all give, for the
keys of the first set that all sets have, or for the range between the bounds. -/
inductive Asks (view : Value) : List Value → Shape → Prop
  | exact (key : Value) (keys : List Value) (same : AllSame (key :: keys)) :
      Asks view ((key :: keys).map (.eq view)) (.exact key)
  | among (keys : List Value) (others : List (List Value)) :
      Asks view ((keys :: others).map (.isIn view))
        (.among (keys.filter fun key => others.all key.isAmong))
  | range (side : Bound) (key : Value) (bounds : List (Bound × Value))
      (same : ∀ at', AllSame (Bound.on at' ((side, key) :: bounds))) :
      Asks view (((side, key) :: bounds).map (Bound.predicate view))
        (.range side key (Bound.on side.opposite bounds).head?)

namespace Asks

variable {view view' : Value} {leaves leaves' : List Value} {shape shape' : Shape}

theorem ne_nil (h : Asks view leaves shape) : leaves ≠ [] := by
  cases h <;> simp

theorem eq_cons_iff {value : Value} {rest : List Value} :
    Asks view (.eq view' value :: rest) shape ↔
      view' = view ∧ ∃ keys, rest = keys.map (.eq view) ∧ AllSame (value :: keys) ∧
        shape = .exact value := by
  constructor
  · intro h
    generalize hl : Value.eq view' value :: rest = l at h
    cases h with
    | exact key keys same =>
        cases hl
        exact ⟨rfl, keys, rfl, same, rfl⟩
    | among keys others => simp at hl
    | range side key bounds same => cases side <;> simp [Bound.predicate] at hl
  · rintro ⟨rfl, keys, rfl, same, rfl⟩
    exact .exact value keys same

theorem isIn_cons_iff {keys : List Value} {rest : List Value} :
    Asks view (.isIn view' keys :: rest) shape ↔
      view' = view ∧ ∃ others : List (List Value), rest = others.map (.isIn view) ∧
        shape = .among (keys.filter fun key => others.all key.isAmong) := by
  constructor
  · intro h
    generalize hl : Value.isIn view' keys :: rest = l at h
    cases h with
    | exact key keys same => simp at hl
    | among keys others =>
        cases hl
        exact ⟨rfl, others, rfl, rfl⟩
    | range side key bounds same => cases side <;> simp [Bound.predicate] at hl
  · rintro ⟨rfl, others, rfl, rfl⟩
    exact .among keys others

theorem bound_cons_iff {bound : Bound × Value} {rest : List Value} :
    Asks view (Bound.predicate view' bound :: rest) shape ↔
      view' = view ∧ ∃ bounds, rest = bounds.map (Bound.predicate view) ∧
        (∀ at', AllSame (Bound.on at' (bound :: bounds))) ∧
        shape = .range bound.1 bound.2 (Bound.on bound.1.opposite bounds).head? := by
  obtain ⟨side, key⟩ := bound
  constructor
  · intro h
    generalize hl : Bound.predicate view' (side, key) :: rest = l at h
    cases h with
    | exact key keys same => cases side <;> simp [Bound.predicate] at hl
    | among keys others => cases side <;> simp [Bound.predicate] at hl
    | range side' key' bounds same =>
        rw [List.map_cons, List.cons.injEq] at hl
        obtain ⟨hb, rfl⟩ := hl
        cases side <;> cases side' <;> simp [Bound.predicate] at hb
        all_goals
          obtain ⟨rfl, rfl⟩ := hb
          exact ⟨rfl, bounds, rfl, same, rfl⟩
  · rintro ⟨rfl, bounds, rfl, same, rfl⟩
    exact .range side key bounds same

theorem map_append_eq {α : Type} {f : Value → α → Value}
    (inj : ∀ v v' a b, f v a = f v' b → v = v' ∧ a = b) {xs ys zs : List α} {y : α} :
    xs.map (f view) ++ (y :: ys).map (f view') = zs.map (f view) ↔
      view' = view ∧ zs = xs ++ y :: ys := by
  have cancel : ∀ {l₁ l₂ : List α}, l₁.map (f view) = l₂.map (f view) → l₁ = l₂ :=
    fun h => List.map_injective_iff.2 (fun a b hab => (inj _ _ a b hab).2) h
  constructor
  · intro h
    obtain ⟨l₁, l₂, rfl, h₁, h₂⟩ := List.map_eq_append_iff.1 h.symm
    obtain ⟨z, zs, rfl, hz, -⟩ := List.map_eq_cons_iff.1 h₂
    obtain ⟨rfl, -⟩ := inj _ _ _ _ hz
    exact ⟨rfl, by rw [cancel h₁, cancel h₂]⟩
  · rintro ⟨rfl, rfl⟩
    rw [List.map_append]

theorem append_exact {w : Value} {x y : Value} {xs ys : List Value} {t : Shape}
    (hx : allJson (x :: xs) = true) (hy : allJson (y :: ys) = true)
    (sx : AllSame (x :: xs)) (sy : AllSame (y :: ys)) :
    Asks w ((x :: xs).map (.eq view) ++ (y :: ys).map (.eq view')) t ↔
      w = view ∧ view' = view ∧ (Shape.exact x).meet (.exact y) = some t := by
  have parts := allSame_append hx hy
  rw [List.map_cons, List.cons_append, eq_cons_iff]
  constructor
  · rintro ⟨rfl, keys, happ, same, rfl⟩
    obtain ⟨rfl, rfl⟩ := (map_append_eq (by simp)).1 happ
    have heads : x.same y = true := (parts.1 same).2.2
    exact ⟨rfl, rfl, by rw [Shape.meet, if_pos heads]⟩
  · rintro ⟨rfl, rfl, hmeet⟩
    rw [Shape.meet, Option.ite_none_right_eq_some] at hmeet
    obtain ⟨heads, hmeet⟩ := hmeet
    cases hmeet
    exact ⟨rfl, xs ++ y :: ys, (map_append_eq (by simp)).2 ⟨rfl, rfl⟩,
      parts.2 ⟨sx, sy, heads⟩, rfl⟩

theorem append_among {w : Value} {xs ys : List Value} {xss yss : List (List Value)}
    {t : Shape} (hx : allJson xs = true) (hy : allJson ys = true)
    (hyy : ∀ other ∈ yss, allJson other = true) :
    Asks w ((xs :: xss).map (.isIn view) ++ (ys :: yss).map (.isIn view')) t ↔
      w = view ∧ view' = view ∧
        (Shape.among (xs.filter fun key => xss.all key.isAmong)).meet
          (.among (ys.filter fun key => yss.all key.isAmong)) = some t := by
  have narrowed : (xs.filter fun key => xss.all key.isAmong).filter
        (fun x => x.isAmong (ys.filter fun key => yss.all key.isAmong)) =
      xs.filter fun key => (xss ++ ys :: yss).all key.isAmong := by
    rw [List.filter_filter]
    refine List.filter_congr fun x mem => ?_
    rw [isAmong_filter (allJson_iff.1 hx x mem) hy hyy]
    simp only [List.all_append, List.all_cons]
    exact Bool.and_comm _ _
  rw [List.map_cons, List.cons_append, isIn_cons_iff, Shape.meet, narrowed]
  constructor
  · rintro ⟨rfl, others, happ, rfl⟩
    obtain ⟨rfl, rfl⟩ := (map_append_eq (by simp)).1 happ
    exact ⟨rfl, rfl, rfl⟩
  · rintro ⟨rfl, rfl, hmeet⟩
    cases hmeet
    exact ⟨rfl, _, (map_append_eq (by simp)).2 ⟨rfl, rfl⟩, rfl⟩

end Asks

theorem Bound.predicate_inj (v v' : Value) (a b : Bound × Value)
    (h : Bound.predicate v a = Bound.predicate v' b) : v = v' ∧ a = b := by
  obtain ⟨side, key⟩ := a
  obtain ⟨side', key'⟩ := b
  cases side <;> cases side' <;> simp [Bound.predicate] at h
  all_goals
    obtain ⟨rfl, rfl⟩ := h
    exact ⟨rfl, rfl⟩

theorem Bound.on_append (side : Bound) (xs ys : List (Bound × Value)) :
    Bound.on side (xs ++ ys) = Bound.on side xs ++ Bound.on side ys :=
  List.filterMap_append

theorem Bound.allJson_on {bounds : List (Bound × Value)}
    (h : ∀ b ∈ bounds, b.2.isJson = true) (side : Bound) :
    allJson (Bound.on side bounds) = true := by
  rw [allJson_iff]
  intro v hv
  obtain ⟨b, mem, hb⟩ := List.mem_filterMap.1 hv
  rw [Option.ite_none_right_eq_some] at hb
  obtain ⟨-, hb⟩ := hb
  cases hb
  exact h b mem

theorem Shape.bound?_on (side : Bound) (key : Value) (bounds : List (Bound × Value))
    (at' : Bound) :
    (Shape.range side key (Bound.on side.opposite bounds).head?).bound? at' =
      (Bound.on at' ((side, key) :: bounds)).head? := by
  cases side <;> cases at' <;> rfl

namespace Asks

variable {view view' : Value} {leaves leaves' : List Value} {shape shape' : Shape}

theorem append_range {w : Value} {b c : Bound × Value} {bs cs : List (Bound × Value)}
    {t : Shape} (hb : ∀ e ∈ b :: bs, e.2.isJson = true)
    (hc : ∀ e ∈ c :: cs, e.2.isJson = true)
    (sb : ∀ at', AllSame (Bound.on at' (b :: bs)))
    (sc : ∀ at', AllSame (Bound.on at' (c :: cs))) :
    Asks w ((b :: bs).map (Bound.predicate view) ++ (c :: cs).map (Bound.predicate view')) t ↔
      w = view ∧ view' = view ∧
        (Shape.range b.1 b.2 (Bound.on b.1.opposite bs).head?).meet
          (.range c.1 c.2 (Bound.on c.1.opposite cs).head?) = some t := by
  have parts : (∀ at', AllSame (Bound.on at' (b :: (bs ++ c :: cs)))) ↔
      ∀ at', Shape.compatible (Bound.on at' (b :: bs)).head?
        (Bound.on at' (c :: cs)).head? = true := by
    refine forall_congr' fun at' => ?_
    rw [← List.cons_append, Bound.on_append,
      allSame_append (Bound.allJson_on hb at') (Bound.allJson_on hc at')]
    exact ⟨fun h => h.2.2, fun h => ⟨sb at', sc at', h⟩⟩
  have meets : (Shape.range b.1 b.2 (Bound.on b.1.opposite bs).head?).meet
        (.range c.1 c.2 (Bound.on c.1.opposite cs).head?) = some t ↔
      (∀ at', Shape.compatible (Bound.on at' (b :: bs)).head?
        (Bound.on at' (c :: cs)).head? = true) ∧
      t = .range b.1 b.2 (Bound.on b.1.opposite (bs ++ c :: cs)).head? := by
    rw [Shape.meet, Option.ite_none_right_eq_some, Bool.and_eq_true]
    simp only [Shape.bound?_on, Bound.on_append, List.head?_append, Option.some.injEq]
    refine and_congr ⟨?_, fun h => ⟨h .lower, h .upper⟩⟩ eq_comm
    rintro ⟨lower, upper⟩ at'
    cases at' with
    | lower => exact lower
    | upper => exact upper
  rw [List.map_cons, List.cons_append, bound_cons_iff, meets]
  constructor
  · rintro ⟨rfl, bounds, happ, same, rfl⟩
    obtain ⟨rfl, rfl⟩ := (map_append_eq Bound.predicate_inj).1 happ
    exact ⟨rfl, rfl, parts.1 same, rfl⟩
  · rintro ⟨rfl, rfl, heads, rfl⟩
    exact ⟨rfl, _, (map_append_eq Bound.predicate_inj).2 ⟨rfl, rfl⟩, parts.2 heads, rfl⟩

def shapeKind : Shape → Fin 3
  | .exact _ => 0
  | .among _ => 1
  | .range .. => 2

def leafKind? : Value → Option (Fin 3)
  | .eq .. => some 0
  | .isIn .. => some 1
  | .atLeast .. | .atMost .. => some 2
  | _ => none

theorem leafKind_of_mem (h : Asks view leaves shape) {p : Value} (mem : p ∈ leaves) :
    leafKind? p = some (shapeKind shape) := by
  cases h with
  | exact key keys same =>
      obtain ⟨x, -, rfl⟩ := List.mem_map.1 mem
      rfl
  | among keys others =>
      obtain ⟨x, -, rfl⟩ := List.mem_map.1 mem
      rfl
  | range side key bounds same =>
      obtain ⟨⟨side', x⟩, -, rfl⟩ := List.mem_map.1 mem
      cases side' <;> rfl

theorem kinds_agree {w : Value} {t : Shape} (h : Asks view leaves shape)
    (h' : Asks view' leaves' shape') (ht : Asks w (leaves ++ leaves') t) :
    shapeKind shape = shapeKind shape' := by
  obtain ⟨p, mem⟩ := List.exists_mem_of_ne_nil _ h.ne_nil
  obtain ⟨p', mem'⟩ := List.exists_mem_of_ne_nil _ h'.ne_nil
  have left := ht.leafKind_of_mem (List.mem_append_left _ mem)
  have right := ht.leafKind_of_mem (List.mem_append_right _ mem')
  rw [h.leafKind_of_mem mem] at left
  rw [h'.leafKind_of_mem mem'] at right
  exact Option.some.inj (left.trans right.symm)

theorem meet_kind {s s' t : Shape} (h : s.meet s' = some t) : shapeKind s = shapeKind s' := by
  cases s <;> cases s' <;> first | rfl | cases h

theorem isTree_map {α : Type} {f : α → Value} {xs : List α} {test : α → Bool}
    (h : ∀ p ∈ xs.map f, p.isTree = true) (imp : ∀ x, (f x).isTree = true → test x = true) :
    ∀ x ∈ xs, test x = true :=
  fun x mem => imp x (h _ (List.mem_map_of_mem mem))

theorem isJson_of_predicate (view : Value) (bound : Bound × Value)
    (h : (Bound.predicate view bound).isTree = true) : bound.2.isJson = true := by
  obtain ⟨side, key⟩ := bound
  cases side <;> exact (Bool.and_eq_true_iff.1 h).2

theorem append_iff {w : Value} {t : Shape} (h : Asks view leaves shape)
    (h' : Asks view' leaves' shape') (trees : ∀ p ∈ leaves, p.isTree = true)
    (trees' : ∀ p ∈ leaves', p.isTree = true) :
    Asks w (leaves ++ leaves') t ↔
      w = view ∧ view' = view ∧ shape.meet shape' = some t := by
  have ofEq : ∀ v x, (Value.eq v x).isTree = true → x.isJson = true :=
    fun v x hx => (Bool.and_eq_true_iff.1 hx).2
  have ofIsIn : ∀ v xs, (Value.isIn v xs).isTree = true → allJson xs = true :=
    fun v xs hx => (Bool.and_eq_true_iff.1 hx).2
  by_cases hk : shapeKind shape = shapeKind shape'
  · cases h <;> cases h' <;> cases hk
    case pos.exact.exact x xs sx y ys sy =>
      exact append_exact (allJson_iff.2 (isTree_map trees (ofEq view)))
        (allJson_iff.2 (isTree_map trees' (ofEq view'))) sx sy
    case pos.among.among xs xss ys yss =>
      have hx := isTree_map trees (ofIsIn view)
      have hy := isTree_map trees' (ofIsIn view')
      exact append_among (hx _ List.mem_cons_self) (hy _ List.mem_cons_self)
        fun other mem => hy other (List.mem_cons_of_mem _ mem)
    case pos.range.range side x bs sb side' y cs sc =>
      exact append_range (isTree_map trees (isJson_of_predicate view))
        (isTree_map trees' (isJson_of_predicate view'))
        sb sc
  · constructor
    · intro ht
      exact absurd (kinds_agree h h' ht) hk
    · rintro ⟨-, -, hmeet⟩
      exact absurd (meet_kind hmeet) hk

theorem unique (h : Asks view leaves shape) (h' : Asks view' leaves shape') :
    view = view' ∧ shape = shape' := by
  cases h with
  | exact key keys same =>
      obtain ⟨hv, keys, -, -, hs⟩ := eq_cons_iff.1 h'
      exact ⟨hv, hs.symm⟩
  | among keys others =>
      obtain ⟨rfl, others', hmap, hs⟩ := isIn_cons_iff.1 h'
      have heq : others = others' :=
        List.map_injective_iff.2 (fun a b hab => (Value.isIn.inj hab).2) hmap
      exact ⟨rfl, by rw [hs, heq]⟩
  | range side key bounds same =>
      obtain ⟨rfl, bounds', hmap, -, hs⟩ := bound_cons_iff.1 h'
      have heq : bounds = bounds' :=
        List.map_injective_iff.2 (fun a b hab => (Bound.predicate_inj _ _ a b hab).2) hmap
      exact ⟨rfl, by rw [hs, heq]⟩

theorem exists_map_of_subset {α : Type} {f : α → Value} {xs : List α} {ps : List Value}
    (h : ps ⊆ xs.map f) : ∃ ys, ys ⊆ xs ∧ ps = ys.map f := by
  induction ps with
  | nil => exact ⟨[], List.nil_subset _, rfl⟩
  | cons p ps ih =>
      obtain ⟨hp, hps⟩ := List.cons_subset.1 h
      obtain ⟨x, mem, rfl⟩ := List.mem_map.1 hp
      obtain ⟨ys, sub, rfl⟩ := ih hps
      exact ⟨x :: ys, List.cons_subset.2 ⟨mem, sub⟩, rfl⟩

theorem of_subset (h : Asks view leaves shape) (sub : leaves' ⊆ leaves)
    (hne : leaves' ≠ []) : ∃ shape', Asks view leaves' shape' := by
  have fewer : ∀ {xs ys : List Value}, xs ⊆ ys → AllSame ys → AllSame xs :=
    fun sub h x mx y my => h x (sub mx) y (sub my)
  cases h with
  | exact key keys same =>
      obtain ⟨ys, hy, rfl⟩ := exists_map_of_subset sub
      obtain ⟨y, ys, rfl⟩ := List.exists_cons_of_ne_nil (by simpa using hne)
      exact ⟨_, .exact y ys (fewer hy same)⟩
  | among keys others =>
      obtain ⟨ys, -, rfl⟩ := exists_map_of_subset sub
      obtain ⟨y, ys, rfl⟩ := List.exists_cons_of_ne_nil (by simpa using hne)
      exact ⟨_, .among y ys⟩
  | range side key bounds same =>
      obtain ⟨ys, hy, rfl⟩ := exists_map_of_subset sub
      obtain ⟨⟨side', y⟩, ys, rfl⟩ := List.exists_cons_of_ne_nil (by simpa using hne)
      exact ⟨_, .range side' y ys fun at' => fewer (List.filterMap_subset _ hy) (same at')⟩

theorem isJson (h : Asks view leaves shape) (trees : ∀ p ∈ leaves, p.isTree = true) :
    shape.isJson = true := by
  cases h with
  | exact key keys same => exact (Bool.and_eq_true_iff.1 (trees _ List.mem_cons_self)).2
  | among keys others =>
      have hk := (Bool.and_eq_true_iff.1 (trees _ List.mem_cons_self)).2
      exact allJson_iff.2 fun x mem => allJson_iff.1 hk x (List.mem_of_mem_filter mem)
  | range side key bounds same =>
      have hj := isTree_map trees (isJson_of_predicate view)
      refine Bool.and_eq_true_iff.2 ⟨hj _ List.mem_cons_self, ?_⟩
      rw [Option.all_eq_true_iff_get]
      intro hs
      have mem := List.mem_of_mem_head? (Option.get_mem hs)
      exact allJson_iff.1 (Bound.allJson_on
        (fun e he => hj e (List.mem_cons_of_mem _ he)) side.opposite) _ mem

theorem view_isText (h : Asks view leaves shape) (trees : ∀ p ∈ leaves, p.isTree = true) :
    view.isText = true := by
  cases h with
  | exact key keys same => exact (Bool.and_eq_true_iff.1 (trees _ List.mem_cons_self)).1
  | among keys others => exact (Bool.and_eq_true_iff.1 (trees _ List.mem_cons_self)).1
  | range side key bounds same =>
      have first := trees _ List.mem_cons_self
      cases side <;> exact (Bool.and_eq_true_iff.1 first).1

end Asks

def exactKeys (leaves : List Value) : List Value :=
  leaves.filterMap fun
    | .eq _ key => some key
    | _ => none

def keySets (leaves : List Value) : List (List Value) :=
  leaves.filterMap fun
    | .isIn _ keys => some keys
    | _ => none

def boundKeys (side : Bound) (leaves : List Value) : List Value :=
  leaves.filterMap fun
    | .atLeast _ key => if side = .lower then some key else none
    | .atMost _ key => if side = .upper then some key else none
    | _ => none

/-- The keys of the first set that all other sets have. -/
def commonKeys : List (List Value) → Option (List Value)
  | [] => none
  | keys :: others => some (keys.filter fun key => others.all key.isAmong)

theorem boundKeys_map (view : Value) (side : Bound) (bounds : List (Bound × Value)) :
    boundKeys side (bounds.map (Bound.predicate view)) = Bound.on side bounds := by
  rw [boundKeys, List.filterMap_map, Bound.on]
  refine List.filterMap_congr fun b _ => ?_
  obtain ⟨at', key⟩ := b
  cases at' <;> cases side <;> rfl

theorem filterMap_map_none {α β : Type} {f : α → Value} {g : Value → Option β} (xs : List α)
    (h : ∀ x, g (f x) = none) : (xs.map f).filterMap g = [] := by
  rw [List.filterMap_map, List.filterMap_eq_nil_iff]
  exact fun x _ => h x

theorem Asks.find?_options {view : Value} {leaves : List Value} {shape : Shape}
    (h : Asks view leaves shape) :
    shape.options.find? (.str "key") = (exactKeys leaves).head? ∧
    shape.options.find? (.str "keys") = (commonKeys (keySets leaves)).map .tuple ∧
    ∀ side : Bound,
      shape.options.find? (.str side.option) = (boundKeys side leaves).head? := by
  cases h with
  | exact key keys same =>
      refine ⟨rfl, ?_, fun side => ?_⟩
      · rw [keySets, filterMap_map_none _ fun _ => rfl]
        rfl
      · rw [boundKeys, filterMap_map_none _ fun _ => rfl]
        cases side <;> rfl
  | among keys others =>
      refine ⟨?_, ?_, fun side => ?_⟩
      · rw [exactKeys, filterMap_map_none _ fun _ => rfl]
        rfl
      · rw [keySets, List.filterMap_map]
        have sets : (keys :: others).filterMap ((fun
            | .isIn _ keys => some keys
            | _ => none) ∘ Value.isIn view) = keys :: others :=
          List.filterMap_some
        rw [sets]
        rfl
      · rw [boundKeys, filterMap_map_none _ fun _ => rfl]
        cases side <;> rfl
  | range side key bounds same =>
      refine ⟨?_, ?_, fun at' => ?_⟩
      · rw [exactKeys, filterMap_map_none _ fun b => by rcases b with ⟨_ | _, _⟩ <;> rfl]
        cases side <;> cases (Bound.on _ bounds).head? <;> rfl
      · rw [keySets, filterMap_map_none _ fun b => by rcases b with ⟨_ | _, _⟩ <;> rfl]
        cases side <;> cases (Bound.on _ bounds).head? <;> rfl
      · rw [boundKeys_map, Shape.find?_options_range, ← Shape.bound?_on]
        rfl

end DocMapper
