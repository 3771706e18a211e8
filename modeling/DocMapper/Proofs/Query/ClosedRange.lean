import DocMapper.Proofs.Query.Answers
import DocMapper.Proofs.Value.Place

/-!
# One key and the range from it to itself

A lookup of one key selects the rows with an equal key; the range from the key to
itself selects those at its place in view order.  The two agree except where a key is
told apart by one test and not by the other: these keys have different forms.
-/

namespace DocMapper

open Value

def exactly (key : Value) : Value := .map [(.str "key", key)]
def oneOf (keys : List Value) : Value := .map [(.str "keys", .tuple keys)]
def fromTo (first last : Value) : Value := .map [(.str "startkey", first), (.str "endkey", last)]

section Rows

variable {rows : List Row} {key : Value}

theorem accepted_by_both (place : Option Ordering) :
    (place.any Bound.lower.accepts && place.any Bound.upper.accepts) = (place == some .eq) := by
  rcases place with _ | _ | _ | _ <;> rfl

theorem select_closed_range (rows : List Row) (key : Value) :
    (Shape.range .lower key (some key)).select rows =
      rows.filter fun row => row.key.samePlace key := by
  refine List.filter_congr fun row _ => ?_
  have sides : (Shape.range .lower key (some key)).admits row.key =
      (Bound.lower.admits key row.key && (Bound.upper.admits key row.key && true)) := rfl
  rw [sides, Bool.and_true]
  exact accepted_by_both _

theorem select_one_of_set (rows : List Row) (key : Value) :
    (Shape.among [key]).select rows = (Shape.exact key).select rows :=
  List.append_nil _

theorem filter_eq_filter {α : Type} {p q : α → Bool} {xs : List α} :
    xs.filter p = xs.filter q ↔ ∀ x ∈ xs, p x = q x := by
  constructor
  · intro equal x mem
    have member : x ∈ xs.filter p ↔ x ∈ xs.filter q := by rw [equal]
    simp only [List.mem_filter, mem, true_and] at member
    exact Bool.eq_iff_iff.2 member
  · exact List.filter_congr

theorem selected_alike_iff (keys : ∀ row ∈ rows, row.key.isJson = true)
    (json : key.isJson = true) :
    (Shape.exact key).select rows = (Shape.range .lower key (some key)).select rows ↔
      ∀ row ∈ rows, row ∈ (Shape.exact key).select rows ∨
        row ∈ (Shape.range .lower key (some key)).select rows → row.key.alike key = true := by
  have exact : (Shape.exact key).select rows = rows.filter fun row => row.key.same key := rfl
  rw [select_closed_range, exact, filter_eq_filter]
  refine forall₂_congr fun row mem => ?_
  rw [same_eq_samePlace_iff (keys row mem) json, List.mem_filter, List.mem_filter]
  simp only [mem, true_and]

theorem mergeOptions_one_bound (clause : Value) (side : Bound) {x y : Value}
    (hx : x.isJson = true) (hy : y.isJson = true) :
    (∃ merged, mergeOptions clause [(.str side.option, x)] [(.str side.option, y)] =
      .ok merged) ↔ x.same y = true := by
  have range : ∀ z : Value, z.isJson = true → (Shape.range side z none).isJson = true :=
    fun z hz => Bool.and_eq_true_iff.2 ⟨hz, rfl⟩
  have merge := mergeOptions_range clause (range x hx) (range y hy)
  have meet : (Shape.range side x none).meet (.range side y none) =
      if x.same y then some (.range side x none) else none := by
    cases side <;> simp [Shape.meet, Shape.bound?, Shape.compatible, Bound.opposite]
  rw [meet] at merge
  cases same : x.same y with
  | true =>
      rw [same] at merge
      exact iff_of_true ⟨_, merge⟩ rfl
  | false =>
      rw [same] at merge
      obtain ⟨refusal, refused⟩ := merge
      refine iff_of_false ?_ Bool.false_ne_true
      rintro ⟨merged, accepted⟩
      cases accepted.symm.trans refused

end Rows

/-- The exact lookup of a key, alone or as the one element of a set, selects the rows of
the range from the key to itself exactly if each row that either of them selects has a key
of one form with it; and two bounds merge exactly if they stand at one place, unless they
are equal or stand at one place without having one form. -/
theorem exact_eq_closed_range_iff {rows : List Row} {key : Value}
    (keys : ∀ row ∈ rows, row.key.isJson = true) (json : key.isJson = true) :
    (∃ exact range,
      selectRows (exactly key) rows = .ok exact ∧
      selectRows (oneOf [key]) rows = .ok exact ∧
      selectRows (fromTo key key) rows = .ok range ∧
      (exact = range ↔
        ∀ row ∈ rows, row ∈ exact ∨ row ∈ range → row.key.alike key = true)) ∧
    ∀ (clause x : Value) (side : Bound), x.isJson = true →
      (((∃ merged, mergeOptions clause [(.str side.option, x)] [(.str side.option, key)] =
            .ok merged) ↔ x.samePlace key = true) ↔
        (x.same key = true ∨ x.samePlace key = true → x.alike key = true)) := by
  have whole : (Shape.range .lower key (some key)).isJson = true :=
    Bool.and_eq_true_iff.2 ⟨json, json⟩
  have single : (Shape.among [key]).isJson = true := Bool.and_eq_true_iff.2 ⟨json, rfl⟩
  have among := selectRows_ok keys single fun _ _ => rfl
  rw [select_one_of_set] at among
  refine ⟨⟨(Shape.exact key).select rows, (Shape.range .lower key (some key)).select rows,
    selectRows_ok keys json fun _ _ => rfl, among, selectRows_ok keys whole fun _ _ => rfl,
    selected_alike_iff keys json⟩, ?_⟩
  intro clause x side hx
  rw [mergeOptions_one_bound clause side hx json, ← Bool.eq_iff_iff,
    same_eq_samePlace_iff hx json]

def Row.keyed (id : String) (key : Value) : Row := ⟨.str id, key, .null, []⟩

theorem exact_number_range :
    selectRows (fromTo (.int 2) (.int 2))
        [.keyed "a" (.int 1), .keyed "b" (.int 2), .keyed "c" (.int 2)] =
      .ok [.keyed "b" (.int 2), .keyed "c" (.int 2)] := by
  let rows : List Row := [.keyed "a" (.int 1), .keyed "b" (.int 2), .keyed "c" (.int 2)]
  have keys : ∀ row ∈ rows, row.key.isJson = true := by decide
  have forms : ∀ row ∈ rows, row.key.alike (.int 2) = true := by decide
  obtain ⟨⟨exact, range, one, -, closed, agree⟩, -⟩ :=
    exact_eq_closed_range_iff keys (show (Value.int 2).isJson = true from rfl)
  have found : selectRows (exactly (.int 2)) rows =
      .ok [.keyed "b" (.int 2), .keyed "c" (.int 2)] := rfl
  cases found.symm.trans one
  rw [closed, agree.2 fun row mem _ => forms row mem]

/-- A truth value equals a number and stands at another place, a tuple stands at the place
of a list and does not equal it, and the order of the entries of an object counts for its
place alone. -/
theorem exact_differs_from_range :
    let number := Row.keyed "a" (.int 1)
    let array := Row.keyed "a" (.list [.str "n"])
    let object := Row.keyed "a" (.map [(.str "a", .int 1), (.str "b", .int 2)])
    let swapped := Value.map [(.str "b", .int 2), (.str "a", .int 1)]
    (selectRows (exactly (.bool true)) [number] = .ok [number] ∧
      selectRows (fromTo (.bool true) (.bool true)) [number] = .ok []) ∧
    (selectRows (exactly (.tuple [.str "n"])) [array] = .ok [] ∧
      selectRows (fromTo (.tuple [.str "n"]) (.tuple [.str "n"])) [array] = .ok [array]) ∧
    selectRows (exactly swapped) [object] = .ok [object] ∧
      selectRows (fromTo swapped swapped) [object] = .ok [] := by
  refine ⟨⟨rfl, rfl⟩, ⟨rfl, rfl⟩, rfl, rfl⟩

end DocMapper
