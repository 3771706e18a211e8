import DocMapper.Proofs.Store.Filing
import Mathlib.Data.Nat.Basic

/-!
# When saving changes a database

Documents that are saved one after the other leave the database alone exactly until the
first of them is taken: it is filed, or its tombstone is lifted although it cannot be
copied.  From then on the database differs for good, since generations only grow and saving
adds no tombstone.
-/

namespace DocMapper

theorem Keyed.sum_set {α : Type} (table : Keyed α) (key : Value) (value : α) (f : α → Nat) :
    ((table.set key value).map fun e => f e.2).sum + ((table.find? key).map f).getD 0 =
      (table.map fun e => f e.2).sum + f value := by
  induction table with
  | nil => simp [set, find?]
  | cons entry rest ih =>
      obtain ⟨k, v⟩ := entry
      unfold set
      rw [find?_cons]
      by_cases same : k.sameKey key = true
      · simp only [same, if_true, List.map_cons, List.sum_cons, Option.map_some, Option.getD_some]
        omega
      · simp only [same, Bool.false_eq_true, if_false, List.map_cons, List.sum_cons]
        omega

namespace Database

variable {db : Database} {tokens : Tokens} {id : Value} {fields : Entries}

/-- The number of writes that the live documents are the result of. -/
def weight (db : Database) : Nat := (db.documents.map fun d => d.2.revision.generation).sum

theorem weight_enter (db : Database) (id : Value) (fields : Entries) (token : String) :
    db.weight < (db.enter id ⟨fields, .after (db.previous? id) token⟩).weight := by
  have exchanged := Keyed.sum_set db.documents id
    ⟨fields, .after (db.previous? id) token⟩ fun stored => stored.revision.generation
  rw [Revision.after_generation] at exchanged
  have replaced : ((db.documents.find? id).map fun stored => stored.revision.generation).getD 0 ≤
      ((db.previous? id).map Revision.generation).getD 0 := by
    rw [previous?]
    cases db.documents.find? id with
    | none => exact Nat.zero_le _
    | some stored => exact Nat.le_refl _
  simp only [weight, enter]
  omega

structure Grows (db db' : Database) : Prop where
  weight : db.weight ≤ db'.weight
  tombstones : db'.tombstones.length ≤ db.tombstones.length

theorem Grows.refl (db : Database) : Grows db db := ⟨Nat.le_refl _, Nat.le_refl _⟩

theorem Grows.trans {db db' db'' : Database} (h : Grows db db') (h' : Grows db' db'') :
    Grows db db'' :=
  ⟨Nat.le_trans h.weight h'.weight, Nat.le_trans h'.tombstones h.tombstones⟩

theorem Files.grows {effect : Effect Entries} (files : Files db tokens id fields effect) :
    Grows db effect.database := by
  have erased : (db.tombstones.erase id).length ≤ db.tombstones.length :=
    List.length_filter_le _ _
  cases files with
  | odd | stale => exact .refl db
  | fixed => exact ⟨Nat.le_refl _, erased⟩
  | filed revision next =>
      subst next
      exact ⟨Nat.le_of_lt (db.weight_enter id _ _), erased⟩

structure Touches (db : Database) (id : Value) (fields : Entries) : Prop where
  admitted : db.Admits id fields
  lasting : (Value.map fields).copyable = true ∨ db.tombstones.has id = true

theorem Files.untouched {effect : Effect Entries} (files : Files db tokens id fields effect)
    (h : ¬ db.Touches id fields) : effect.database = db := by
  cases files with
  | odd | stale => rfl
  | fixed admitted =>
      have absent : ¬ db.tombstones.has id = true := fun has => h ⟨admitted, .inr has⟩
      simp only [Effect.fail, raise, Keyed.erase_eq_self absent]
  | filed _ _ admitted copyable => exact absurd ⟨admitted, .inl copyable⟩ h

theorem Files.touched {effect : Effect Entries} (files : Files db tokens id fields effect)
    (h : db.Touches id fields) : ¬ Grows effect.database db := by
  intro back
  cases files with
  | odd unhashable =>
      rw [h.admitted.hashable] at unhashable
      cases unhashable
  | stale _ refused => exact refused h.admitted.presented
  | fixed _ uncopyable =>
      obtain copyable | has := h.lasting
      · rw [copyable] at uncopyable
        cases uncopyable
      · exact Nat.lt_irrefl _
          (Nat.lt_of_lt_of_le (Keyed.length_erase_lt has) back.tombstones)
  | filed revision next =>
      subst next
      exact Nat.lt_irrefl _ (Nat.lt_of_lt_of_le (db.weight_enter id _ _) back.weight)

/-- One of the documents is taken; those before it are refused, each alone. -/
inductive Touched (db : Database) : Tokens → List Entries → Prop where
  | first {tokens : Tokens} {fields : Entries} {rest : List Entries}
      (touches : db.Touches (place tokens fields).1 fields) :
      Touched db tokens (fields :: rest)
  | later {tokens : Tokens} {fields : Entries} {rest : List Entries}
      (hashable : (place tokens fields).1.hashable = true)
      (refused : revisionOf fields ≠ db.awaited (place tokens fields).1)
      (touched : Touched db (place tokens fields).2 rest) :
      Touched db tokens (fields :: rest)

theorem touched_single :
    db.Touched tokens [fields] ↔ db.Touches (place tokens fields).1 fields := by
  constructor
  · rintro (touches | ⟨-, -, touched⟩)
    · exact touches
    · cases touched
  · exact .first

theorem save_grows (db : Database) (tokens : Tokens) (fields : Entries) :
    Grows db (db.save tokens (.map fields)).database :=
  (db.save_files tokens fields).grows

theorem saveBatch_grows (db : Database) (tokens : Tokens) (documents : List Entries) :
    Grows db (db.saveBatch tokens (documents.map .map)).database := by
  induction documents generalizing db tokens with
  | nil => exact .refl db
  | cons fields rest ih =>
      have grown := db.save_grows tokens fields
      generalize saved : db.save tokens (.map fields) = effect at grown
      rw [List.map_cons, saveBatch_map saved]
      cases itemOf fields effect.outcome with
      | error failure => exact grown
      | ok item => exact grown.trans (ih _ _)

theorem saveBatch_grown {effect : Effect Entries} (saved : db.save tokens (.map fields) = effect)
    (rest : List Entries) :
    Grows effect.database (db.saveBatch tokens ((fields :: rest).map .map)).database := by
  rw [List.map_cons, saveBatch_map saved]
  cases itemOf fields effect.outcome with
  | error failure => exact .refl _
  | ok item => exact saveBatch_grows ..

/-- Saving documents one after the other changes the database exactly if one of them is
taken. -/
theorem saveBatch_eq_self_iff (db : Database) (tokens : Tokens) (documents : List Entries) :
    (db.saveBatch tokens (documents.map .map)).database = db ↔ ¬ db.Touched tokens documents := by
  induction documents generalizing tokens with
  | nil => exact iff_of_true rfl nofun
  | cons fields rest ih =>
      have files := db.save_files tokens fields
      generalize saved : db.save tokens (.map fields) = effect at files
      by_cases touches : db.Touches (place tokens fields).1 fields
      · -- Whatever is saved next, the way back is barred.
        refine iff_of_false (fun back => ?_) (not_not.2 (.first touches))
        have grown := saveBatch_grown saved rest
        rw [back] at grown
        exact files.touched touches grown
      · rw [List.map_cons, saveBatch_map saved]
        have same := files.untouched touches
        have tail : db.Touched tokens (fields :: rest) ↔
            (place tokens fields).1.hashable = true ∧
              revisionOf fields ≠ db.awaited (place tokens fields).1 ∧
              db.Touched (place tokens fields).2 rest := by
          constructor
          · rintro (taken | ⟨hashable, refused, touched⟩)
            · exact absurd taken touches
            · exact ⟨hashable, refused, touched⟩
          · exact fun ⟨hashable, refused, touched⟩ => .later hashable refused touched
        rw [tail]
        cases files with
        | odd unhashable =>
            refine iff_of_true rfl fun h => ?_
            rw [h.1] at unhashable
            cases unhashable
        | stale hashable refused => 
            rw [← and_assoc, and_iff_right ⟨hashable, refused⟩]
            exact ih _
        | fixed admitted => exact iff_of_true same fun h => h.2.1 admitted.presented
        | filed _ _ admitted copyable => exact absurd ⟨admitted, .inl copyable⟩ touches

end Database

end DocMapper
