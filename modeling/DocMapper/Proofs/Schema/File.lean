import DocMapper.Proofs.Schema.Registry
import DocMapper.Schema.File

/-!
# Loading a file into a registry

The entities of a file are registered one after the other.  Nothing is registered of a file that
cannot be read, nor in a registry that is frozen; otherwise the registry takes the entities up
to the first that clashes with one it holds by then, and keeps them.
-/

namespace DocMapper.Registry

theorem register_eq (r : Registry) (entity : Entity) :
    r.register entity = match r.requireNew entity with
      | .ok () => .ok (r.add entity)
      | .error failure => .error failure := by
  have entered : ((enter entity).run.run r : Outcome Entity × Registry) = _ := eval_enter r entity
  rw [register, after, entered]
  cases r.requireNew entity <;> rfl

def enterAll (r : Registry) (entities : List Entity) : Registry :=
  run r (entities.map .register)

theorem frozen_enterAll (r : Registry) (entities : List Entity) :
    (r.enterAll entities).frozen = r.frozen := by
  induction entities generalizing r with
  | nil => rfl
  | cons entity rest ih =>
      have does := does_call r (.register entity)
      rw [enterAll, List.map_cons, run, List.foldl_cons]
      refine (ih _).trans ?_
      generalize Step.answer r (.register entity) = answer at does
      generalize Step.leaves r (.register entity) = left at does ⊢
      cases does <;> rfl

/-- Registering in turn takes all entities, or those before the first that is refused. -/
theorem registerAll_cases (r : Registry) (entities : List Entity) :
    (r.registerAll entities = (r.enterAll entities, .ok ()) ∧
        (r.enterAll entities).entities = r.entities ++ entities) ∨
      ∃ before entity after failure, entities = before ++ entity :: after ∧
        r.registerAll entities = (r.enterAll before, .error failure) ∧
        (r.enterAll before).entities = r.entities ++ before ∧
        (r.enterAll before).requireNew entity = .error failure := by
  induction entities generalizing r with
  | nil => exact .inl ⟨rfl, (List.append_nil _).symm⟩
  | cons entity rest ih =>
      rw [registerAll, register_eq]
      cases new : r.requireNew entity with
      | error failure =>
          exact .inr ⟨[], entity, rest, failure, rfl, rfl, (List.append_nil _).symm, new⟩
      | ok =>
          have accepted := accepts_of_requireNew new
          have first : ∀ more, r.enterAll (entity :: more) = (r.add entity).enterAll more :=
            fun more => by
              rw [enterAll, List.map_cons, run, List.foldl_cons, leaves_of_accepts accepted]
              rfl
          have held : ∀ more, (r.add entity).entities ++ more = r.entities ++ entity :: more :=
            fun more => by rw [accepted.entities_add, ← List.append_cons]
          rcases ih (r.add entity) with ⟨all, holds⟩ | ⟨before, refused, after, failure, split,
            stopped, holds, new⟩
          · left
            rw [first, ← held]
            exact ⟨all, holds⟩
          · right
            refine ⟨entity :: before, refused, after, failure, ?_, ?_, ?_, ?_⟩
            · rw [split]
              rfl
            · rw [first]
              exact stopped
            · rw [first, ← held]
              exact holds
            · rw [first]
              exact new

theorem loadText_malformed {r : Registry} {text : String} {failure : Failure}
    (malformed : schemaOfText text = .error failure) :
    r.loadText text = (r, .error failure) := by
  rw [loadText, malformed]

theorem loadText_entities {r : Registry} {text : String} {entities : List Entity}
    (read : schemaOfText text = .ok entities) :
    r.loadText text = match r.registerAll entities with
      | (left, .ok ()) => (left, .ok entities)
      | (left, .error failure) => (left, .error failure) := by
  rcases registered : r.registerAll entities with ⟨left, failure | _⟩ <;>
    simp only [loadText, read, registered]

/-- If a file is loaded, all its entities are registered, after those that were.  If loading
fails, either the file cannot be read and the registry is as it was, or one of its entities is
refused: the registry then holds, after those that it held, the entities of the file before the
first that is refused.  A frozen registry refuses the first, any other only an entity that
clashes with one it holds by then, or whose name or source cannot be a key. -/
theorem loadText_registers_until_refused (steps : List Step) (text : String) :
    let r := run empty steps
    let left := (r.loadText text).1
    match (r.loadText text).2 with
    | .ok entities =>
        schemaOfText text = .ok entities ∧ left = r.enterAll entities ∧
          left.entities = r.entities ++ entities
    | .error failure =>
        (schemaOfText text = .error failure ∧ left = r) ∨
        ∃ before entity after, schemaOfText text = .ok (before ++ entity :: after) ∧
          left = r.enterAll before ∧ left.entities = r.entities ++ before ∧
          left.register entity = .error failure ∧
          (r.frozen = true ∧ before = [] ∨
            r.frozen = false ∧ (entity.name.hashable = false ∨ entity.source.hashable = false ∨
              ∃ other ∈ r.entities ++ before, other.Clashes entity)) := by
  intro r left
  have indexed : Indexed r := indexed_empty.run steps
  cases read : schemaOfText text with
  | error failure =>
      simp only [left, loadText_malformed read]
      exact .inl ⟨trivial, trivial⟩
  | ok entities =>
      have loaded := loadText_entities (r := r) read
      rcases registerAll_cases r entities with ⟨all, holds⟩ |
        ⟨before, entity, after, failure, split, stopped, holds, refused⟩
      · rw [all] at loaded
        simp only [left, loaded]
        exact ⟨trivial, trivial, holds⟩
      · rw [stopped] at loaded
        simp only [left, loaded]
        refine .inr ⟨before, entity, after, congrArg Except.ok split, rfl, holds, ?_, ?_⟩
        · rw [register_eq, refused]
        cases frozen : r.frozen with
        | true =>
            rw [enterAll, run_of_frozen frozen] at holds
            exact .inl ⟨rfl, List.self_eq_append_right.1 holds⟩
        | false =>
            have rejected : ¬ (r.enterAll before).Accepts entity := fun accepted => by
              rw [requireNew_of_accepts accepted] at refused
              cases refused
            have unfrozen : ¬ (r.enterAll before).frozen = true := by
              rw [frozen_enterAll, frozen]
              exact Bool.false_ne_true
            rw [← holds]
            exact .inr ⟨rfl, ((indexed.run _).not_accepts_iff.1 rejected).resolve_left unfrozen⟩

def sharedDatabase : String :=
  "entities: [\x7bname: A, source: s\x7d, \x7bname: B, source: s\x7d]"

/-- The second entity is refused, and the first stays. -/
theorem loadText_keeps_before_clash :
    (∃ failure, (empty.loadText sharedDatabase).2 = .error failure) ∧
      (empty.loadText sharedDatabase).1.entities.map (fun entity => entity.name.text) = ["A"] ∧
      empty.entities = [] := by
  refine ⟨?_, by decide +kernel, rfl⟩
  have refused : (empty.loadText sharedDatabase).2.toBool = false := by decide +kernel
  cases outcome : (empty.loadText sharedDatabase).2 with
  | error failure => exact ⟨failure, rfl⟩
  | ok entities =>
      rw [outcome] at refused
      cases refused

end DocMapper.Registry
