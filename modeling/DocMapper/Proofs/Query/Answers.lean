import DocMapper.Proofs.Query.Compile
import DocMapper.Proofs.Store.Rows

/-!
# Rows that answer a query

A row satisfies a predicate if its key does.  The rows that a view lookup selects
are those that satisfy the predicate it was compiled from: in view order, or for a
set of keys one key after the other.
-/

namespace DocMapper

namespace Bound

def accepts : Bound → Ordering → Bool
  | .lower, order => order != .lt
  | .upper, order => order != .gt

def admits (side : Bound) (bound key : Value) : Bool :=
  (key.collation.order? bound.collation).any side.accepts

end Bound

namespace Value

mutual

def admits : Value → Value → Bool
  | .eq _ value, key => key.same value
  | .isIn _ values, key => key.isAmong values
  | .atLeast _ value, key => Bound.lower.admits value key
  | .atMost _ value, key => Bound.upper.admits value key
  | .all parts, key => allAdmit parts key
  | _, _ => false
termination_by structural x => x

def allAdmit : List Value → Value → Bool
  | [], _ => true
  | p :: rest, key => admits p key && allAdmit rest key
termination_by structural x => x

end

mutual

theorem admits_leaves : ∀ p key : Value, p.admits key = p.leaves.all (·.admits key)
  | .all parts, key => allAdmit_leavesOf parts key
  | .null, _ | .bool _, _ | .int _, _ | .float _, _ | .str _, _ | .bytes _, _ | .list _, _
  | .tuple _, _ | .map _, _ | .readOnly _, _ | .record .., _ | .recordType _, _
  | .viewRef _, _ | .compare .., _ => rfl
  | .eq .., _ | .isIn .., _ | .atLeast .., _ | .atMost .., _ => by simp [leaves]

theorem allAdmit_leavesOf : ∀ (parts : List Value) (key : Value),
    allAdmit parts key = (leavesOf parts).all (·.admits key)
  | [], _ => rfl
  | p :: rest, key => by
      rw [allAdmit, leavesOf, List.all_append, admits_leaves p, allAdmit_leavesOf rest]

end

end Value

namespace Shape

def admits (shape : Shape) (key : Value) : Bool :=
  match shape with
  | .exact value => key.same value
  | .among values => key.isAmong values
  | .range side value other => [Bound.lower, .upper].all fun at' =>
      ((Shape.range side value other).bound? at').all fun bound => at'.admits bound key

def select : Shape → List Row → List Row
  | .among keys, rows => keys.flatMap fun key => rows.filter fun row => row.hasKey key
  | .exact key, rows => rows.filter fun row => row.hasKey key
  | .range side key other, rows =>
      rows.filter fun row => (Shape.range side key other).admits row.key

end Shape

/-- Bounds on one side that are equal stand at the same place in view order. -/
def BoundsAlike (leaves : List Value) : Prop :=
  ∀ side : Bound, ∀ x ∈ boundKeys side leaves, ∀ y ∈ boundKeys side leaves,
    x.same y = true → x.collation.order? y.collation = some .eq

section Admits

open Value

variable {view key : Value} {leaves : List Value} {shape : Shape}

theorem Bound.admits_congr {side : Bound} {x y : Value} (hk : key.isJson = true)
    (hx : x.isJson = true) (hy : y.isJson = true)
    (h : x.collation.order? y.collation = some .eq) :
    side.admits x key = side.admits y key := by
  rw [Bound.admits, Bound.admits, Collation.order?_congr (isPlain_collation key hk)
    (isPlain_collation x hx) (isPlain_collation y hy) h]

theorem all_first {test : Value → Bool} {x : Value} {rest : List Value}
    (agree : ∀ y ∈ x :: rest, test x = true → test y = true) :
    (x :: rest).all test = test x := by
  rw [Bool.eq_iff_iff, List.all_eq_true]
  exact ⟨fun h => h x List.mem_cons_self, fun h y mem => agree y mem h⟩

theorem all_same {values : List Value} {x : Value} (hk : key.isJson = true)
    (json : allJson (x :: values) = true) (same : AllSame (x :: values)) :
    ((x :: values).all fun y => key.same y) = key.same x := by
  rw [allJson_iff] at json
  apply all_first
  intro y mem h
  exact same_trans hk (json x List.mem_cons_self) (json y mem) h
    (same x List.mem_cons_self y mem)

theorem all_bounds {side : Bound} {bounds : List Value} (hk : key.isJson = true)
    (json : allJson bounds = true) (same : AllSame bounds)
    (alike : ∀ x ∈ bounds, ∀ y ∈ bounds, x.same y = true →
      x.collation.order? y.collation = some .eq) :
    (bounds.all fun x => side.admits x key) = bounds.head?.all fun x => side.admits x key := by
  cases bounds with
  | nil => rfl
  | cons x rest =>
      rw [allJson_iff] at json
      rw [List.head?_cons, Option.all_some]
      apply all_first
      intro y mem h
      have first := List.mem_cons_self (a := x) (l := rest)
      rw [← Bound.admits_congr hk (json x first) (json y mem)
        (alike x first y mem (same x first y mem))]
      exact h

theorem Bound.mem_on {side : Bound} {x : Value} {bounds : List (Bound × Value)} :
    x ∈ Bound.on side bounds ↔ (side, x) ∈ bounds := by
  rw [Bound.on, List.mem_filterMap]
  constructor
  · rintro ⟨⟨side', y⟩, mem, h⟩
    obtain ⟨same, h⟩ := Option.ite_none_right_eq_some.1 h
    rw [← same, ← Option.some.inj h]
    exact mem
  · exact fun mem => ⟨(side, x), mem, if_pos rfl⟩

theorem all_on (bounds : List (Bound × Value)) (test : Bound → Value → Bool) :
    (bounds.all fun b => test b.1 b.2) =
      [Bound.lower, .upper].all fun side => (Bound.on side bounds).all (test side) := by
  rw [Bool.eq_iff_iff]
  simp only [List.all_eq_true, Bound.mem_on]
  constructor
  · exact fun h side _ x mem => h (side, x) mem
  · rintro h ⟨side, x⟩ mem
    exact h side (by cases side <;> simp) x mem

theorem Asks.admits (h : Asks view leaves shape) (trees : ∀ p ∈ leaves, p.isTree = true)
    (hk : key.isJson = true) (alike : BoundsAlike leaves) :
    leaves.all (·.admits key) = shape.admits key := by
  cases h with
  | exact x values same =>
      rw [List.all_map]
      exact all_same hk (allJson_iff.2 (isTree_map trees fun v hv =>
        (Bool.and_eq_true_iff.1 hv).2)) same
  | among values others =>
      have json := isTree_map trees fun vs hv => (Bool.and_eq_true_iff.1 hv).2
      rw [List.all_map, Shape.admits, isAmong_filter hk (json _ List.mem_cons_self)
        fun other mem => json other (List.mem_cons_of_mem _ mem)]
      rfl
  | range side x bounds same =>
      have json := isTree_map trees (isJson_of_predicate view)
      have leaf : ∀ b : Bound × Value,
          (Bound.predicate view b).admits key = b.1.admits b.2 key := by
        rintro ⟨_ | _, y⟩ <;> rfl
      rw [List.all_map, Shape.admits]
      simp only [Function.comp_def, leaf, Shape.bound?_on]
      rw [all_on _ fun at' y => at'.admits y key]
      refine List.all_congr rfl fun at' => ?_
      have alike' := alike at'
      rw [boundKeys_map] at alike'
      exact all_bounds hk (Bound.allJson_on json at') (same at') alike'

end Admits

/-! ## Selected rows -/

def Requests (options : Entries) (shape : Shape) : Prop :=
  ∀ name ∈ exactOptions ++ rangeOptions,
    options.find? (.str name) = shape.options.find? (.str name)

section Selecting

variable {options : Entries} {rows : List Row} {shape : Shape}

theorem holds_map (options : Entries) (name : String) :
    (Value.map options).holds (.str name) = .ok (options.find? (.str name)).isSome := rfl

theorem part_map (options : Entries) (name : String) :
    (Value.map options).part name = .ofOption .absentKey (options.find? (.str name)) := rfl

theorem isAt_ok {row : Row} (json : row.key.isJson = true) {bound : Value}
    (hb : bound.isJson = true) (side : Bound) :
    row.isAt bound.collation side.accepts = .ok (side.admits bound row.key) := by
  have order := Collation.order?_tokens (Value.isPlain_collation _ json)
    (Value.isPlain_collation _ hb)
  rw [Row.isAt, Bound.admits, order]
  rfl

def selectSide (options : Value) (side : Bound) (rows : List Row) : Outcome (List Row) := do
  if ← options.holds (.str side.option) then
    let place := (← options.part side.option).collation
    rows.filterM fun row => row.isAt place side.accepts
  else return rows

theorem selectRange_sides (options : Value) (rows : List Row) :
    selectRange options rows =
      (do selectSide options .upper (← selectSide options .lower rows)) := by
  have option : Bound.lower.option = "startkey" := rfl
  rw [selectRange, selectSide, option]
  cases options.holds (.str "startkey") with
  | error failure => rfl
  | ok given =>
      cases given with
      | false => rfl
      | true => cases options.part "startkey" <;> rfl

theorem selectSide_ok (keys : ∀ row ∈ rows, row.key.isJson = true) (side : Bound)
    {bound? : Option Value} (json : bound?.all Value.isJson = true)
    (found : options.find? (.str side.option) = bound?) :
    selectSide (.map options) side rows =
      .ok (rows.filter fun row => bound?.all fun bound => side.admits bound row.key) := by
  rw [selectSide, holds_map, part_map, found]
  cases bound? with
  | none =>
      simp only [Option.all_none, List.filter_true]
      rfl
  | some bound =>
      have kept : rows.filterM (fun row => row.isAt bound.collation side.accepts) =
          .ok (rows.filter fun row => side.admits bound row.key) :=
        Outcome.filterM_ok fun row mem => isAt_ok (keys row mem) json side
      exact kept

theorem selectRange_ok (keys : ∀ row ∈ rows, row.key.isJson = true) {side : Bound}
    {value : Value} {other : Option Value} (json : (Shape.range side value other).isJson = true)
    (requests : Requests options (.range side value other)) :
    selectRange (.map options) rows =
      .ok (rows.filter fun row => (Shape.range side value other).admits row.key) := by
  have found : ∀ at' : Bound,
      options.find? (.str at'.option) = (Shape.range side value other).bound? at' := by
    intro at'
    rw [requests at'.option (by cases at' <;> simp [rangeOptions, Bound.option]),
      Shape.find?_options_range]
    rfl
  have bounds : ∀ at' : Bound,
      ((Shape.range side value other).bound? at').all Value.isJson = true := by
    intro at'
    rw [Shape.isJson, Bool.and_eq_true] at json
    rw [Shape.bound?]
    split
    · exact json.1
    · exact json.2
  have lower := selectSide_ok keys .lower (bounds .lower) (found .lower)
  have kept : ∀ row ∈ rows.filter (fun row =>
      ((Shape.range side value other).bound? .lower).all fun bound =>
        Bound.lower.admits bound row.key), row.key.isJson = true :=
    fun row mem => keys row (List.mem_of_mem_filter mem)
  have upper := selectSide_ok kept .upper (bounds .upper) (found .upper)
  rw [selectRange_sides, Outcome.bind_eq_ok.2 ⟨_, lower, upper⟩, List.filter_filter]
  simp only [Shape.admits, List.all_cons, List.all_nil, Bool.and_true]
  exact congrArg Except.ok (List.filter_congr fun row _ => Bool.and_comm _ _)

theorem selectRows_ok (keys : ∀ row ∈ rows, row.key.isJson = true) (json : shape.isJson = true)
    (requests : Requests options shape) :
    selectRows (.map options) rows = .ok (shape.select rows) := by
  have one := requests "key" (by simp [exactOptions])
  have several := requests "keys" (by simp [exactOptions])
  rw [selectRows, holds_map, holds_map, part_map, part_map, one, several]
  cases shape with
  | exact value => cases rows <;> rfl
  | among values => rfl
  | range side value other =>
      have absent : ∀ name ∈ exactOptions,
          (Shape.range side value other).options.find? (.str name) = none := by
        cases side <;> cases other <;> simp [exactOptions] <;> exact ⟨rfl, rfl⟩
      rw [absent "key" (by simp [exactOptions]), absent "keys" (by simp [exactOptions])]
      exact selectRange_ok keys json requests

end Selecting

section Found

open Value

variable {view : Value} {leaves : List Value} {shape : Shape} {rows : List Row}

end Found

end DocMapper
