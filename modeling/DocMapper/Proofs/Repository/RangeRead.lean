import DocMapper.Proofs.Repository.PointRead

/-!
# Range reads

A view lists one row for each live document that it emits something for, in view order.
What is read between two bounds is a block of that listing: rows in view order can only
pass the lower bound from some row on, and the upper one up to some row.
-/

namespace DocMapper

section Blocks

variable {α : Type} {before : α → α → Prop} {xs : List α}

end Blocks

section Bounds

open Value

variable {key bound : Value}

end Bounds

def Row.passes (options : Entries) (side : Bound) (row : Row) : Bool :=
  (options.find? (.str side.option)).all fun bound => side.admits bound row.key

def Row.within (options : Entries) (row : Row) : Bool :=
  row.passes options .lower && row.passes options .upper

section Within

variable {options : Entries} {rows : List Row}
  (bounds : ∀ (side : Bound) (bound : Value),
    options.find? (.str side.option) = some bound → bound.isJson = true)

include bounds

end Within

section Listing

open Memory StoreM

variable {m : Memory} {name design view : String} {db : Database} {map : ViewMap}

end Listing

open Posts Memory StoreM

end DocMapper
