/-!
# Similar names

The similarity of two sequences is `2 * m / t`, where `t` is the number of
their elements together and `m` counts the matched ones: the longest common
block, and then, in the same way, those on its left and on its right.  When the
word looked for is long, elements that are frequent in it start no block.
-/

namespace DocMapper.Text

structure Block where
  left : Nat
  right : Nat
  size : Nat
  deriving DecidableEq, Repr

def commonRun {α : Type} [BEq α] : List α → List α → Nat
  | x :: xs, y :: ys => if x == y then commonRun xs ys + 1 else 0
  | _, _ => 0

/-- For one element on the left, the length of the common run from it and from
each place on the right, when the lengths for the next element are known. -/
def runsFrom {α : Type} [BEq α] (x : α) (ys : List α) (next : List Nat) : List Nat :=
  List.zipWith (fun y run => if x == y then run + 1 else 0) ys (next.drop 1 ++ [0])

/-- The lengths of all common runs, a row for each element on the left.  A run
holds only elements that may start a block. -/
def runTable {α : Type} [BEq α] (starts : α → Bool) (ys : List α) : List α → List (List Nat)
  | [] => []
  | x :: xs =>
      let below := runTable starts ys xs
      let zeros := List.replicate ys.length 0
      (if starts x then runsFrom x ys (below.head?.getD zeros) else zeros) :: below

def longer (best : Block) (left : Nat) (run : Nat × Nat) : Block :=
  if best.size < run.1 then ⟨left, run.2, run.1⟩ else best

/-- The first and longest block among elements that may start one: the earliest
on the left, and of those the earliest on the right. -/
def longestFrom {α : Type} [BEq α] (starts : α → Bool) (xs ys : List α) : Block :=
  (runTable starts ys xs).zipIdx.foldl (fun best row =>
    row.1.zipIdx.foldl (fun best run => longer best row.2 run) best) ⟨0, 0, 0⟩

def extendLeft {α : Type} [BEq α] (xs ys : List α) (b : Block) : Block :=
  let gain := commonRun (xs.take b.left).reverse (ys.take b.right).reverse
  ⟨b.left - gain, b.right - gain, b.size + gain⟩

def extendRight {α : Type} [BEq α] (xs ys : List α) (b : Block) : Block :=
  let gain := commonRun (xs.drop (b.left + b.size)) (ys.drop (b.right + b.size))
  ⟨b.left, b.right, b.size + gain⟩

def longestBlock {α : Type} [BEq α] (starts : α → Bool) (xs ys : List α) : Block :=
  extendRight xs ys (extendLeft xs ys (longestFrom starts xs ys))

/-! ## Similarity -/

/-- The number of matched elements; every step shortens what is left. -/
def matched {α : Type} [BEq α] (starts : α → Bool) : Nat → List α → List α → Nat
  | 0, _, _ => 0
  | steps + 1, xs, ys =>
      let b := longestBlock starts xs ys
      if b.size = 0 then 0
      else
        matched starts steps (xs.take b.left) (ys.take b.right) + b.size +
          matched starts steps (xs.drop (b.left + b.size)) (ys.drop (b.right + b.size))

/-- Elements that are not frequent in a long word. -/
def mayStart {α : Type} [BEq α] (word : List α) (x : α) : Bool :=
  word.length < 200 || word.count x ≤ word.length / 100 + 1

def similarity {α : Type} [BEq α] (candidate word : List α) : Nat × Nat :=
  (matched (mayStart word) (candidate.length + 1) candidate word,
    candidate.length + word.length)

def isClose (s : Nat × Nat) : Bool := 10 * (2 * s.1) ≥ 6 * s.2

def moreSimilar (s t : Nat × Nat) : Bool := s.1 * t.2 > t.1 * s.2

def equallySimilar (s t : Nat × Nat) : Bool := s.1 * t.2 == t.1 * s.2

/-- The `limit` closest of the candidates, best first; of equally close ones the
greater name comes first. -/
def closest {α ν : Type} [BEq α] (limit : Nat) (greater : ν → ν → Bool) (word : List α)
    (candidates : List (ν × List α)) : List ν :=
  let scored := candidates.map fun c => (c.1, similarity c.2 word)
  let close := scored.filter fun c => isClose c.2
  let before (a b : ν × (Nat × Nat)) : Bool :=
    moreSimilar a.2 b.2 || (equallySimilar a.2 b.2 && !greater b.1 a.1)
  ((close.mergeSort before).take limit).map Prod.fst

end DocMapper.Text
