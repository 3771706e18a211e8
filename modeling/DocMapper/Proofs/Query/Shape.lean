import DocMapper.Proofs.Outcome
import DocMapper.Proofs.Value.Json
import DocMapper.Query.Options

/-!
# Shapes of view lookups

A lookup fixes one key, a set of keys, or bounds of a range.  Two shapes meet in
the shape that answers both, if there is one; merging the options of two shapes
gives the options of their meet, and is refused if they do not meet.
-/

namespace DocMapper

def Outcome.Answers {α : Type} (outcome : Outcome α) : Option α → Prop
  | some a => outcome = .ok a
  | none => ∃ refusal, outcome = refuse refusal

inductive Bound where
  | lower
  | upper
  deriving DecidableEq, Repr

namespace Bound

def option : Bound → String
  | .lower => "startkey"
  | .upper => "endkey"

def opposite : Bound → Bound
  | .lower => .upper
  | .upper => .lower

end Bound

inductive Shape where
  | exact (key : Value)
  | among (keys : List Value)
  /-- The bound that is given first, and the one on the other side. -/
  | range (side : Bound) (key : Value) (other : Option Value)

namespace Shape

def options : Shape → Entries
  | .exact key => [(.str "key", key)]
  | .among keys => [(.str "keys", .tuple keys)]
  | .range side key none => [(.str side.option, key)]
  | .range side key (some key') => [(.str side.option, key), (.str side.opposite.option, key')]

def bound? : Shape → Bound → Option Value
  | .range side key other, at' => if side = at' then some key else other
  | _, _ => none

def isJson : Shape → Bool
  | .exact key => key.isJson
  | .among keys => Value.allJson keys
  | .range _ key other => key.isJson && other.all Value.isJson

def compatible : Option Value → Option Value → Bool
  | some x, some y => x.same y
  | _, _ => true

def meet : Shape → Shape → Option Shape
  | .exact x, .exact y => if x.same y then some (.exact x) else none
  | .among xs, .among ys => some (.among (xs.filter fun x => x.isAmong ys))
  | .range side key other, .range side' key' other' =>
      let left := Shape.range side key other
      let right := Shape.range side' key' other'
      if compatible (left.bound? .lower) (right.bound? .lower) &&
          compatible (left.bound? .upper) (right.bound? .upper) then
        some (.range side key (other.or (right.bound? side.opposite)))
      else none
  | _, _ => none

def narrow (side : Bound) (key : Value) (other : Option Value) (at' : Bound) (bound : Value) :
    Option (Option Value) :=
  if compatible (if side = at' then some key else other) (some bound) then
    some (if side = at' then other else some (other.getD bound))
  else none

end Shape

/-! ## Merging one option -/

section Merging

open Value

variable (clause : Value)

theorem mergeOption_absent {merged : Entries} {name : String} (value : Value)
    (h : merged.find? (.str name) = none) :
    mergeOption clause merged (.str name) value = .ok (merged.set (.str name) value) := by
  rw [mergeOption, h]

theorem mergeOption_present {merged : Entries} {name : String} {present value : Value}
    (h : merged.find? (.str name) = some present) (hname : name ≠ "keys")
    (hp : present.isJson = true) (hv : value.isJson = true) :
    (mergeOption clause merged (.str name) value).Answers
      (if present.same value then some merged else none) := by
  rw [mergeOption, h]
  simp only [same_str, beq_iff_eq, hname, if_false, differs_json hp hv]
  cases present.same value
  · exact ⟨_, rfl⟩
  · rfl

theorem intersectKeys_tuple (xs ys : List Value) :
    intersectKeys (.tuple xs) (.tuple ys) =
      .ok (.tuple (xs.filter fun x => x.isAmong ys)) := by
  have kept : xs.filterM (fun key => (Value.tuple ys).holds key) =
      .ok (xs.filter fun x => x.isAmong ys) :=
    Outcome.filterM_ok fun _ _ => rfl
  change xs.filterM (fun key => (Value.tuple ys).holds key) >>=
    (fun kept => (.ok (.tuple kept) : Outcome Value)) = _
  rw [kept]
  rfl

theorem Shape.find?_options_range (side : Bound) (key : Value) (other : Option Value)
    (at' : Bound) :
    (Shape.range side key other).options.find? (.str at'.option) =
      if side = at' then some key else other := by
  cases side <;> cases at' <;> cases other <;>
    simp [Shape.options, Bound.option, Bound.opposite, sameKey_str, Keyed.find?]

theorem mergeOption_narrow {side : Bound} {key bound : Value} {other : Option Value}
    (at' : Bound)
    (hs : (Shape.range side key other).isJson = true) (hb : bound.isJson = true) :
    (mergeOption clause (Shape.range side key other).options (.str at'.option) bound).Answers
      ((Shape.narrow side key other at' bound).map fun other =>
        (Shape.range side key other).options) := by
  have found := Shape.find?_options_range side key other at'
  rw [Shape.isJson, Bool.and_eq_true] at hs
  cases hp : (if side = at' then some key else other) with
  | none =>
      rw [hp] at found
      rw [mergeOption_absent clause bound found]
      cases side <;> cases at' <;> simp at hp <;> subst hp <;>
        simp [Shape.narrow, Shape.compatible, Shape.options, Bound.option, Bound.opposite,
          Keyed.set, sameKey_str, Outcome.Answers]
  | some present =>
      rw [hp] at found
      have hj : present.isJson = true := by
        split at hp
        · cases hp
          exact hs.1
        · subst hp
          exact hs.2
      have step := mergeOption_present clause found (by cases at' <;> decide) hj hb
      have unchanged : (if side = at' then other else some (other.getD bound)) = other := by
        split at hp
        next h => rw [if_pos h]
        next h => rw [if_neg h, hp, Option.getD_some]
      rw [Shape.narrow, hp, unchanged, Shape.compatible]
      split <;> simp_all

theorem mergeOptions_single {left right : Entries} {shape? : Option Shape}
    (h : Outcome.Answers
      (right.foldlM (fun merged e => mergeOption clause merged e.1 e.2) left)
      (shape?.map Shape.options)) :
    (mergeOptions clause left right).Answers (shape?.map Shape.options) := by
  cases shape? with
  | none =>
      obtain ⟨refusal, h⟩ := h
      exact ⟨refusal, by rw [mergeOptions, h]; rfl⟩
  | some shape =>
      rw [Option.map_some] at h ⊢
      change _ = _ at h
      rw [mergeOptions, h]
      rcases shape with key | keys | ⟨side, key, _ | other⟩
      · rfl
      · rfl
      · cases side <;> rfl
      · cases side <;> rfl

theorem mergeOptions_conflict {left right merged : Entries}
    (h : right.foldlM (fun merged e => mergeOption clause merged e.1 e.2) left = .ok merged)
    (several : ((anchors merged).any exactOptions.contains &&
      decide ((anchors merged).length > 1)) = true) :
    (mergeOptions clause left right).Answers none := by
  refine ⟨.conflictingAnchors (anchors merged) clause, ?_⟩
  rw [mergeOptions, h]
  simp only [bind, Except.bind, several]
  rfl

theorem foldlM_one {left : Entries} (name value : Value) :
    [(name, value)].foldlM (fun merged e => mergeOption clause merged e.1 e.2) left =
      mergeOption clause left name value :=
  bind_pure _

theorem foldlM_two {left merged : Entries} {name value name' value' : Value}
    (h : mergeOption clause left name value = .ok merged) :
    [(name, value), (name', value')].foldlM
        (fun merged e => mergeOption clause merged e.1 e.2) left =
      mergeOption clause merged name' value' := by
  rw [List.foldlM_cons, h]
  exact foldlM_one clause name' value'

theorem mergeOptions_exact {x y : Value} (hx : x.isJson = true) (hy : y.isJson = true) :
    (mergeOptions clause (Shape.exact x).options (Shape.exact y).options).Answers
      (((Shape.exact x).meet (.exact y)).map Shape.options) := by
  have step := mergeOption_present clause
    (show (Shape.exact x).options.find? (.str "key") = some x from rfl) (by decide) hx hy
  apply mergeOptions_single
  rw [Shape.meet, Shape.options.eq_1 y, foldlM_one]
  cases h : x.same y <;> simpa [h] using step

theorem mergeOptions_among (xs ys : List Value) :
    (mergeOptions clause (Shape.among xs).options (Shape.among ys).options).Answers
      (((Shape.among xs).meet (.among ys)).map Shape.options) := by
  have step : mergeOption clause (Shape.among xs).options (.str "keys") (.tuple ys) =
      .ok (Shape.among (xs.filter fun x => x.isAmong ys)).options := by
    have kept := intersectKeys_tuple xs ys
    rw [mergeOption]
    change (do return Keyed.set _ _ (← intersectKeys (.tuple xs) (.tuple ys))) = _
    rw [kept]
    rfl
  apply mergeOptions_single
  rw [Shape.meet, Shape.options.eq_2 ys, foldlM_one, step]
  rfl

theorem Shape.isJson_narrow {side at' : Bound} {key bound : Value} {other narrowed : Option Value}
    (h : (Shape.range side key other).isJson = true) (hb : bound.isJson = true)
    (hn : Shape.narrow side key other at' bound = some narrowed) :
    (Shape.range side key narrowed).isJson = true := by
  rw [Shape.isJson, Bool.and_eq_true] at h ⊢
  refine ⟨h.1, ?_⟩
  unfold Shape.narrow at hn
  split_ifs at hn <;> cases hn
  · exact h.2
  · cases other with
    | none => exact hb
    | some key' => exact h.2

theorem Shape.meet_range (side : Bound) (key : Value) (other : Option Value)
    (side' : Bound) (key' : Value) (other' : Option Value) :
    (Shape.range side key other).meet (.range side' key' other') =
      ((narrow side key other side' key').bind fun narrowed =>
        match other' with
        | some bound => narrow side key narrowed side'.opposite bound
        | none => some narrowed).map (.range side key) := by
  cases side <;> cases side' <;> cases other <;> cases other' <;>
    simp [meet, narrow, compatible, bound?, Bound.opposite]
  all_goals
    split_ifs <;> simp_all

theorem mergeOptions_range {side side' : Bound} {key key' : Value}
    {other other' : Option Value} (h : (Shape.range side key other).isJson = true)
    (h' : (Shape.range side' key' other').isJson = true) :
    (mergeOptions clause (Shape.range side key other).options
      (Shape.range side' key' other').options).Answers
      (((Shape.range side key other).meet (.range side' key' other')).map
        Shape.options) := by
  obtain ⟨hkey, hother⟩ := Bool.and_eq_true_iff.1 h'
  have step := mergeOption_narrow clause side' h hkey
  apply mergeOptions_single
  rw [Shape.meet_range]
  cases other' with
  | none =>
      rw [Shape.options.eq_3 side' key', foldlM_one, Option.bind_fun_some, Option.map_map]
      exact step
  | some bound =>
      rw [Shape.options.eq_4 side' key']
      cases hn : Shape.narrow side key other side' key' with
      | none =>
          rw [hn] at step
          obtain ⟨refusal, step⟩ := step
          exact ⟨refusal, by rw [List.foldlM_cons, step]; rfl⟩
      | some narrowed =>
          rw [hn] at step
          change _ = _ at step
          have hj : (Shape.range side key narrowed).isJson = true :=
            Shape.isJson_narrow h hkey hn
          have next := mergeOption_narrow clause side'.opposite hj hother
          rw [foldlM_two clause step, Option.bind_some, Option.map_map]
          exact next

/-- Merging the options of two shapes gives those of their meet. -/
theorem mergeOptions_meet {s s' : Shape} (h : s.isJson = true) (h' : s'.isJson = true) :
    (mergeOptions clause s.options s'.options).Answers ((s.meet s').map Shape.options) := by
  rcases s with x | xs | ⟨side, x, other⟩ <;> rcases s' with y | ys | ⟨side', y, other'⟩
  · exact mergeOptions_exact clause h h'
  · exact mergeOptions_conflict clause rfl rfl
  · cases side' <;> cases other' <;> exact mergeOptions_conflict clause rfl rfl
  · exact mergeOptions_conflict clause rfl rfl
  · exact mergeOptions_among clause xs ys
  · cases side' <;> cases other' <;> exact mergeOptions_conflict clause rfl rfl
  · cases side <;> cases other <;> exact mergeOptions_conflict clause rfl rfl
  · cases side <;> cases other <;> exact mergeOptions_conflict clause rfl rfl
  · exact mergeOptions_range clause h h'

end Merging

end DocMapper
