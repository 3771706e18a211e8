import DocMapper.Value.Order
import DocMapper.Value.Display

/-!
# View collation

The order of view keys: null, false, true, numbers, texts, arrays, objects.
Arrays and objects are compared item by item, objects with their entries in the
order in which they stand.  Values of any other kind come last, by their text.
-/

namespace DocMapper

inductive Collation where
  | null
  | no
  | yes
  | int (i : Int)
  | float (x : Double)
  | text (s : String)
  | array (items : List Collation)
  | object (entries : List (Value × Collation))
  | other (display : String)
  deriving Repr, Inhabited

namespace Value

mutual

def collation : Value → Collation
  | .null => .null
  | .bool b => if b then .yes else .no
  | .int i => .int i
  | .float x => .float x
  | .str s => .text s
  | .list items | .tuple items => .array (collationItems items)
  | .map entries | .readOnly entries => .object (collationEntries entries)
  | v => .other v.display
termination_by structural x => x

def collationItems : List Value → List Collation
  | [] => []
  | v :: vs => collation v :: collationItems vs
termination_by structural x => x

def collationEntries : List (Value × Value) → List (Value × Collation)
  | [] => []
  | (k, v) :: rest => (k, collation v) :: collationEntries rest
termination_by structural x => x

end

end Value

namespace Collation

def rank : Collation → Nat
  | .null => 0
  | .no => 1
  | .yes => 2
  | .int _ | .float _ => 3
  | .text _ => 4
  | .array _ => 5
  | .object _ => 6
  | .other _ => 7

def quantity? : Collation → Option Quantity
  | .int i => some (.ofInt i)
  | .float x => some x.quantity
  | _ => none

def orderTexts (s t : String) : Ordering :=
  if s < t then .lt else if s = t then .eq else .gt

def orderQuantities (x y : Quantity) : Ordering :=
  if x.lt y then .lt else if y.lt x then .gt else .eq

mutual

/-- The order of two places; there is none between two objects whose first
different keys have none. -/
def order? : Collation → Collation → Option Ordering
  | .text s, b =>
      match b with
      | .text t => some (orderTexts s t)
      | b => some (Ord.compare 4 b.rank)
  | .other s, b =>
      match b with
      | .other t => some (orderTexts s t)
      | b => some (Ord.compare 7 b.rank)
  | .array xs, b =>
      match b with
      | .array ys => orderItems? xs ys
      | b => some (Ord.compare 5 b.rank)
  | .object xs, b =>
      match b with
      | .object ys => orderEntries? xs ys
      | b => some (Ord.compare 6 b.rank)
  | a, b =>
      match a.quantity?, b.quantity? with
      | some x, some y => some (orderQuantities x y)
      | _, _ => some (Ord.compare a.rank b.rank)
termination_by structural x => x

def orderItems? : List Collation → List Collation → Option Ordering
  | [], [] => some .eq
  | [], _ :: _ => some .lt
  | _ :: _, [] => some .gt
  | x :: xs, y :: ys =>
      match order? x y with
      | some .eq => orderItems? xs ys
      | decided => decided
termination_by structural x => x

def orderEntries? : List (Value × Collation) → List (Value × Collation) → Option Ordering
  | [], [] => some .eq
  | [], _ :: _ => some .lt
  | _ :: _, [] => some .gt
  | (k, x) :: xs, (l, y) :: ys =>
      if k.same l then
        match order? x y with
        | some .eq => orderEntries? xs ys
        | decided => decided
      else
        (k.less? l).map fun less => if less then .lt else .gt
termination_by structural x => x

end

def less? (a b : Collation) : Option Bool := (order? a b).map (· == .lt)

/-! ## Written form -/

mutual

def written : Collation → Value
  | .null => .list [.int 0]
  | .no => .list [.int 1]
  | .yes => .list [.int 2]
  | .int i => .list [.int 3, .int i]
  | .float x => .list [.int 3, .float x]
  | .text s => .list [.int 4, .str s]
  | .array items => .list [.int 5, .list (writtenItems items)]
  | .object entries => .list [.int 6, .list (writtenEntries entries)]
  | .other display => .list [.int 7, .str display]
termination_by structural x => x

def writtenItems : List Collation → List Value
  | [] => []
  | x :: xs => written x :: writtenItems xs
termination_by structural x => x

def writtenEntries : List (Value × Collation) → List Value
  | [] => []
  | (k, x) :: rest => .list [k, written x] :: writtenEntries rest
termination_by structural x => x

end

end Collation

/-- Values in view order; equal ones keep the order in which they came. -/
def Value.sortCollated? (values : List Value) : Option (List Value) :=
  sorted? (fun a b => a.collation.less? b.collation) values

end DocMapper
