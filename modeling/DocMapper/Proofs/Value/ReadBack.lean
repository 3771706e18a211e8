import DocMapper.Http.Exchange
import DocMapper.Proofs.Value.Parts
import DocMapper.Proofs.Value.Trees

/-!
# Values read back

A JSON value has a tree, and what is read back from it is the value with lists in place of its
tuples.
-/

namespace DocMapper

namespace Json

theorem toValues_eq (items : List Json) : toValues items = items.map toValue := by
  induction items with
  | nil => rfl
  | cons item rest ih => rw [toValues, ih, List.map_cons]

theorem toEntries_eq (members : List (String × Json)) :
    toEntries members = members.map fun m => (.str m.1, m.2.toValue) := by
  induction members with
  | nil => rfl
  | cons member rest ih => rw [toEntries, ih, List.map_cons]

theorem allFinite_array {items : List Json} :
    (array items).allFinite = true ↔ ∀ item ∈ items, item.allFinite = true := by
  rw [allFinite]
  induction items with
  | nil => simp [allFiniteItems]
  | cons item rest ih => simp [allFiniteItems, ih]

theorem allFinite_object {members : List (String × Json)} :
    (object members).allFinite = true ↔ ∀ m ∈ members, m.2.allFinite = true := by
  rw [allFinite]
  induction members with
  | nil => simp [allFiniteMembers]
  | cons member rest ih => simp [allFiniteMembers, ih]

end Json

namespace Value

def IsJsonPart : Value → Prop
  | .null | .bool _ | .int _ | .str _ | .list _ | .tuple _ => True
  | .float x => x.WellFormed ∧ ∀ negative, x ≠ .infinite negative
  | .map entries => (∀ e ∈ entries, e.1.isText = true) ∧ Keyed.Distinct entries
  | _ => False

mutual

def asLists : Value → Value
  | .list items | .tuple items => .list (allAsLists items)
  | .map entries => .map (entriesAsLists entries)
  | v => v
termination_by structural x => x

def allAsLists : List Value → List Value
  | [] => []
  | v :: vs => asLists v :: allAsLists vs
termination_by structural x => x

def entriesAsLists : List (Value × Value) → List (Value × Value)
  | [] => []
  | (k, v) :: rest => (k, asLists v) :: entriesAsLists rest
termination_by structural x => x

end

theorem allAsLists_eq (items : List Value) : allAsLists items = items.map asLists := by
  induction items with
  | nil => rfl
  | cons v vs ih => rw [allAsLists, ih, List.map_cons]

theorem entriesAsLists_eq (entries : Entries) :
    entriesAsLists entries = entries.map fun e => (e.1, e.2.asLists) := by
  induction entries with
  | nil => rfl
  | cons e rest ih => rw [entriesAsLists, ih, List.map_cons]

/-- The tree stands for the value, and can be written as text and as a body. -/
structure Shows (j : Json) (v : Value) : Prop where
  tree : v.toJson? false = some j
  formed : j.WellFormed
  finite : j.allFinite = true
  read : j.toValue = v.asLists

theorem read_items {items : List Value} {js : List Json}
    (shown : List.Forall₂ (fun v j => Shows j v) items js) :
    Json.toValues js = allAsLists items := by
  rw [Json.toValues_eq, allAsLists_eq]
  induction shown with
  | nil => rfl
  | cons first _ ih => rw [List.map_cons, List.map_cons, first.read, ih]

theorem shows_array {v : Value} {items : List Value} {js : List Json}
    (array : v.array? = some items) (shown : List.Forall₂ (fun v j => Shows j v) items js) :
    Shows (.array js) v := by
  have trees : toJsons? false items = some js :=
    toJsons?_eq_some.2 (shown.imp fun _ _ h => h.tree)
  have each : ∀ j ∈ js, ∃ v, Shows j v := fun j mem =>
    (exists_of_mem_right shown mem).imp fun _ => And.right
  have formed := Json.wellFormed_array.2 fun j mem => (each j mem).elim fun _ h => h.formed
  have finite := Json.allFinite_array.2 fun j mem => (each j mem).elim fun _ h => h.finite
  cases v <;> cases array
  all_goals exact ⟨by rw [toJson?, trees]; rfl, formed, finite, congrArg list (read_items shown)⟩

theorem nameMembers?_named (members : List (String × Json)) :
    nameMembers? (members.map fun m => (.str m.1, m.2)) = some members := by
  induction members with
  | nil => rfl
  | cons member rest ih =>
      rw [nameMembers?] at ih ⊢
      rw [List.map_cons, List.mapM_cons, ih]
      rfl

theorem read_members {entries : Entries} {members : List (String × Json)}
    (shown : List.Forall₂ (fun e m => e.1 = .str m.1 ∧ Shows m.2 e.2) entries members) :
    Json.toEntries members = entriesAsLists entries := by
  rw [Json.toEntries_eq, entriesAsLists_eq]
  induction shown with
  | nil => rfl
  | cons first _ ih => rw [List.map_cons, List.map_cons, first.1, first.2.read, ih]

theorem distinct_entriesAsLists {entries : Entries} (distinct : Keyed.Distinct entries) :
    Keyed.Distinct (entriesAsLists entries) := by
  rw [entriesAsLists_eq]
  exact List.pairwise_map.2 distinct

theorem shows_object {entries : Entries} {members : List (String × Json)}
    (distinct : Keyed.Distinct entries)
    (shown : List.Forall₂ (fun e m => e.1 = .str m.1 ∧ Shows m.2 e.2) entries members) :
    Shows (.object members) (.map entries) where
  tree := by
    have trees : toMembers? false entries = some (members.map fun m => (.str m.1, m.2)) := by
      rw [toMembers?_eq_some, List.forall₂_map_right_iff]
      exact shown.imp fun _ _ h => ⟨h.1.symm, h.2.tree⟩
    have named := nameMembers?_named members
    simp [toJson?, trees, named]
  formed := Json.wellFormed_object.2 fun _ mem =>
    (exists_of_mem_right shown mem).elim fun _ h => h.2.2.formed
  finite := Json.allFinite_object.2 fun _ mem =>
    (exists_of_mem_right shown mem).elim fun _ h => h.2.2.finite
  read := by
    rw [Json.toValue, read_members shown, (distinct_entriesAsLists distinct).ofPairs, asLists]

theorem exists_shows {v : Value} (json : v.Everywhere IsJsonPart) : ∃ j, Shows j v := by
  induction v using parts_induction with
  | array v items array ih =>
      obtain ⟨js, shown⟩ := exists_forall₂ fun item mem => ih item mem (json.item array item mem)
      exact ⟨.array js, shows_array array shown⟩
  | named v entries named ih =>
      cases v with
      | map =>
          obtain rfl := Option.some.inj named
          obtain ⟨texts, distinct⟩ := json.here
          obtain ⟨members, shown⟩ := exists_forall₂
            (R := fun (e : Value × Value) (m : String × Json) => e.1 = .str m.1 ∧ Shows m.2 e.2)
            fun e mem => by
              obtain ⟨s, key⟩ := isText_iff.1 (texts e mem)
              obtain ⟨j, shown⟩ := ih e mem (json.entry rfl e mem)
              exact ⟨(s, j), key, shown⟩
          exact ⟨.object members, shows_object distinct shown⟩
      | readOnly | record | eq | isIn | atLeast | atMost | compare | all => exact json.here.elim
      | _ => cases named
  | leaf v array named =>
      cases v with
      | null => exact ⟨.null, rfl, trivial, rfl, rfl⟩
      | bool b => exact ⟨.bool b, rfl, trivial, rfl, rfl⟩
      | int i => exact ⟨.int i, rfl, trivial, rfl, rfl⟩
      | str s => exact ⟨.str s, rfl, trivial, rfl, rfl⟩
      | float x =>
          obtain ⟨formed, finite⟩ := json.here
          refine ⟨.float x, rfl, formed, ?_, rfl⟩
          cases x with
          | infinite negative => exact absurd rfl (finite negative)
          | _ => rfl
      | list | tuple => cases array
      | bytes | recordType | viewRef => exact json.here.elim
      | _ => cases named

end Value

end DocMapper
