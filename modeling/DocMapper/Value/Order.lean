import DocMapper.Value.Keyed

/-!
# Order of values

Numbers are ordered by quantity, texts and bytes by their characters, and two
lists or two tuples by their first different items.  Other pairs have no order.
Sorting succeeds exactly when every two of the items have an order.
-/

namespace DocMapper

def allComparable {α : Type} (less? : α → α → Option Bool) : List α → Bool
  | [] => true
  | x :: xs =>
      xs.all (fun y => (less? x y).isSome && (less? y x).isSome) && allComparable less? xs

/-- Items in ascending order; equal ones keep the order in which they came. -/
def sorted? {α : Type} (less? : α → α → Option Bool) (xs : List α) : Option (List α) :=
  if allComparable less? xs then
    some (xs.mergeSort fun a b => less? b a != some true)
  else none

theorem sorted?_perm {α : Type} {less? : α → α → Option Bool} {xs ys : List α}
    (h : sorted? less? xs = some ys) : ys.Perm xs := by
  unfold sorted? at h
  split at h
  · cases h
    exact List.mergeSort_perm xs _
  · cases h

namespace Value

def lessBytes : List UInt8 → List UInt8 → Bool
  | [], ys => !ys.isEmpty
  | _ :: _, [] => false
  | x :: xs, y :: ys => x < y || (x == y && lessBytes xs ys)

mutual

def less? : Value → Value → Option Bool
  | .viewRef _, _ => some true
  | .str s, b =>
      match b with
      | .str t => some (decide (s < t))
      | b => if b.isViewRef then some true else none
  | .bytes s, b =>
      match b with
      | .bytes t => some (lessBytes s t)
      | b => if b.isViewRef then some true else none
  | .list xs, b =>
      match b with
      | .list ys => lessItems? xs ys
      | b => if b.isViewRef then some true else none
  | .tuple xs, b =>
      match b with
      | .tuple ys => lessItems? xs ys
      | b => if b.isViewRef then some true else none
  | a, b =>
      match a.quantity?, b.quantity? with
      | some x, some y => some (x.lt y)
      | _, _ => if b.isViewRef then some true else none
termination_by structural x => x

def lessItems? : List Value → List Value → Option Bool
  | [], ys => some (!ys.isEmpty)
  | _ :: _, [] => some false
  | x :: xs, y :: ys => if same x y then lessItems? xs ys else less? x y
termination_by structural x => x

end

end Value

end DocMapper
