import DocMapper.Value.Basic

/-!
# Equality of values

Numbers and truth values are equal by quantity, maps without regard to the order
of their entries, lists only to lists and tuples only to tuples.  Comparing
anything with a view reference builds a predicate, and a predicate counts as
true, so a reference equals every value.  As the key of a map, however, a
reference stands for the name it holds.
-/

namespace DocMapper

namespace Value

def quantity? : Value → Option Quantity
  | .bool b => some (.ofInt (if b then 1 else 0))
  | .int i => some (.ofInt i)
  | .float x => some x.quantity
  | _ => none

def referent : Value → Value
  | .viewRef name => referent name
  | v => v

/-- Applies a test to the right side of a comparison.  Between keys a reference
is replaced by what it stands for; elsewhere it passes every test. -/
def against (asKey : Bool) (b : Value) (test : Value → Bool) : Bool :=
  if asKey then test b.referent else b.isViewRef || test b

mutual

def agree : Bool → Value → Value → Bool
  | asKey, .viewRef name, b => !asKey || agree asKey name b
  | asKey, .null, b => against asKey b isNull
  | asKey, .bool x, b => against asKey b fun b =>
      b.quantity? == some (.ofInt (if x then 1 else 0))
  | asKey, .int i, b => against asKey b fun b => b.quantity? == some (.ofInt i)
  | asKey, .float x, b => against asKey b fun b => b.quantity? == some x.quantity
  | asKey, .str s, b => against asKey b fun
      | .str t => s == t
      | _ => false
  | asKey, .bytes s, b => against asKey b fun
      | .bytes t => s == t
      | _ => false
  | asKey, .list xs, b => against asKey b fun
      | .list ys => agreeItems asKey xs ys
      | _ => false
  | asKey, .tuple xs, b => against asKey b fun
      | .tuple ys => agreeItems asKey xs ys
      | _ => false
  | asKey, .map xs, b => against asKey b fun b =>
      match b.entries? with
      | some ys => xs.length == ys.length && agreeEntries asKey xs ys
      | none => false
  | asKey, .readOnly xs, b => against asKey b fun b =>
      match b.entries? with
      | some ys => xs.length == ys.length && agreeEntries asKey xs ys
      | none => false
  | asKey, .record type xs, b => against asKey b fun
      | .record type' ys => type == type' && agreeFields asKey xs ys
      | _ => false
  | asKey, .recordType name, b => against asKey b fun
      | .recordType name' => name == name'
      | _ => false
  | asKey, .eq view value, b => against asKey b fun
      | .eq view' value' => agree asKey view view' && agree asKey value value'
      | _ => false
  | asKey, .isIn view values, b => against asKey b fun
      | .isIn view' values' => agree asKey view view' && agreeItems asKey values values'
      | _ => false
  | asKey, .atLeast view value, b => against asKey b fun
      | .atLeast view' value' => agree asKey view view' && agree asKey value value'
      | _ => false
  | asKey, .atMost view value, b => against asKey b fun
      | .atMost view' value' => agree asKey view view' && agree asKey value value'
      | _ => false
  | asKey, .compare view op value, b => against asKey b fun
      | .compare view' op' value' =>
          agree asKey view view' && agree asKey op op' && agree asKey value value'
      | _ => false
  | asKey, .all parts, b => against asKey b fun
      | .all parts' => agreeItems asKey parts parts'
      | _ => false
termination_by structural _ x => x

def agreeItems : Bool → List Value → List Value → Bool
  | _, [], [] => true
  | asKey, x :: xs, y :: ys => agree asKey x y && agreeItems asKey xs ys
  | _, _, _ => false
termination_by structural _ x => x

def agreeEntries : Bool → List (Value × Value) → List (Value × Value) → Bool
  | _, [], _ => true
  | asKey, (k, v) :: rest, ys =>
      (match ys.find? fun y => agree true k y.1 with
        | some y => agree asKey v y.2
        | none => false) && agreeEntries asKey rest ys
termination_by structural _ x => x

def agreeFields : Bool → List (String × Value) → List (String × Value) → Bool
  | _, [], [] => true
  | asKey, (f, v) :: xs, (g, w) :: ys => f == g && agree asKey v w && agreeFields asKey xs ys
  | _, _, _ => false
termination_by structural _ x => x

end

def same (a b : Value) : Bool := agree false a b

/-- Inequality is not the negation of equality: that of a reference builds a
predicate too, and so also holds. -/
def differs (a b : Value) : Bool := a.isViewRef || b.isViewRef || !same a b

def sameKey (a b : Value) : Bool := agree true a b

def isAmong (v : Value) (items : List Value) : Bool := items.any fun item => same item v

/-! ## Keys -/

mutual

def hashable : Value → Bool
  | .list _ | .map _ | .readOnly _ | .record .. => false
  | .tuple items | .all items => hashableAll items
  | .viewRef name => hashable name
  | .eq view value | .atLeast view value | .atMost view value =>
      hashable view && hashable value
  | .isIn view values => hashable view && hashableAll values
  | .compare view op value => hashable view && hashable op && hashable value
  | _ => true
termination_by structural x => x

def hashableAll : List Value → Bool
  | [] => true
  | v :: vs => hashable v && hashableAll vs
termination_by structural x => x

end

theorem sameKey_str (s t : String) : sameKey (.str s) (.str t) = (s == t) := by
  simp [sameKey, agree, against, referent]

theorem same_str (s t : String) : same (.str s) (.str t) = (s == t) := by
  simp [same, agree, against, isViewRef]

end Value

end DocMapper
