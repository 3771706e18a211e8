import DocMapper.Value.Equality

/-!
# Tables keyed by values

A table lists what it holds in the order in which the keys were first given.
The entries of a map are such a table.
-/

namespace DocMapper

namespace Keyed

variable {α : Type}

def find? (table : Keyed α) (key : Value) : Option α :=
  (List.find? (fun e => e.1.sameKey key) table).map Prod.snd

def has (table : Keyed α) (key : Value) : Bool := (table.find? key).isSome

/-- Gives a key a value.  A key that is already there keeps its place. -/
def set : Keyed α → Value → α → Keyed α
  | [], key, value => [(key, value)]
  | (k, v) :: rest, key, value =>
      if k.sameKey key then (k, value) :: rest else (k, v) :: set rest key value

def erase (table : Keyed α) (key : Value) : Keyed α :=
  table.filter fun e => !e.1.sameKey key

/-- A table built from pairs; of equal keys the first place and the last value
count. -/
def ofPairs (pairs : List (Value × α)) : Keyed α :=
  pairs.foldl (fun table p => set table p.1 p.2) []

def update (table changes : Keyed α) : Keyed α :=
  changes.foldl (fun table p => set table p.1 p.2) table

end Keyed

namespace Value

def ofFields (fields : List (String × Value)) : Value :=
  .map (fields.map fun f => (.str f.1, f.2))

def distinctKeys (vs : List Value) : List Value :=
  vs.foldl (fun seen v => if seen.any (sameKey · v) then seen else seen ++ [v]) []

end Value

end DocMapper
