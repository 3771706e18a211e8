import DocMapper.Proofs.Outcome
import DocMapper.Proofs.Value.Table
import DocMapper.Schema.Registry

/-!
# Histories of a registry

Whatever calls a registry has answered, its two indexes hold the same entities, in the order
in which they were registered, and each is found under its name and under its source.  A
call that fails changes nothing, and nothing changes a registry that is frozen.
-/

namespace DocMapper

def Entity.Clashes (a b : Entity) : Prop :=
  a.name.sameKey b.name = true ∨ a.source.sameKey b.source = true

namespace Registry

inductive Step where
  | register (entity : Entity)
  | freeze

def eval {α : Type} (action : RegistryM α) (r : Registry) : Outcome α × Registry :=
  action.run.run r

def Step.perform : Step → RegistryM Unit
  | .register entity => do let _ ← enter entity
  | .freeze => do let _ ← lock

def Step.answer (r : Registry) (step : Step) : Outcome Unit := (eval step.perform r).1

def Step.leaves (r : Registry) (step : Step) : Registry := (eval step.perform r).2

def run (r : Registry) (steps : List Step) : Registry := steps.foldl Step.leaves r

def Step.registered? (r : Registry) (step : Step) : Option Entity :=
  match step, step.answer r with
  | .register entity, .ok () => some entity
  | _, _ => none

def registrations (r : Registry) : List Step → List Entity
  | [] => []
  | step :: rest => (step.registered? r).toList ++ registrations (step.leaves r) rest

variable {α : Type}

structure Accepts (r : Registry) (entity : Entity) : Prop where
  unfrozen : r.frozen = false
  hashableName : entity.name.hashable = true
  newName : r.byName.find? entity.name = none
  hashableSource : entity.source.hashable = true
  newSource : r.bySource.find? entity.source = none

def add (r : Registry) (entity : Entity) : Registry :=
  { r with
    byName := r.byName.set entity.name entity
    bySource := r.bySource.set entity.source entity }

def sealed (r : Registry) (fingerprint : String) : Registry :=
  { r with fingerprint := some fingerprint, frozen := true }

/-- What a call does: it fails and changes nothing, it adds an entity that the registry
accepts, or it takes the fingerprint of the registry. -/
inductive Does (r : Registry) : Step → Outcome Unit → Registry → Prop where
  | refused (step : Step) (failure : Failure)
      (taken : ∀ entity, step = .register entity → ¬ r.Accepts entity) :
      Does r step (.error failure) r
  | added (entity : Entity) (accepted : r.Accepts entity) :
      Does r (.register entity) (.ok ()) (r.add entity)
  | sealed (fingerprint : String) (unfrozen : r.frozen = false)
      (computed : r.computeFingerprint = .ok fingerprint) :
      Does r .freeze (.ok ()) (r.sealed fingerprint)

theorem get_eq (r : Registry) (name : Value) :
    r.get name = if name.hashable then .ok (r.byName.find? name) else .error .wrongType := by
  rw [get, Value.requireHashable]
  split <;> rfl

theorem getBySource_eq (r : Registry) (source : Value) :
    r.getBySource source =
      if source.hashable then .ok (r.bySource.find? source) else .error .wrongType := by
  rw [getBySource, Value.requireHashable]
  split <;> rfl

theorem accepts_of_requireNew {r : Registry} {entity : Entity}
    (h : r.requireNew entity = .ok ()) : r.Accepts entity := by
  rw [requireNew, get_eq, getBySource_eq] at h
  cases unfrozen : r.frozen with
  | true => rw [unfrozen] at h; cases h
  | false =>
      cases hashableName : entity.name.hashable with
      | false => rw [unfrozen, hashableName] at h; cases h
      | true =>
          cases newName : r.byName.find? entity.name with
          | some other => rw [unfrozen, hashableName, newName] at h; cases h
          | none =>
              cases hashableSource : entity.source.hashable with
              | false => rw [unfrozen, hashableName, newName, hashableSource] at h; cases h
              | true =>
                  cases newSource : r.bySource.find? entity.source with
                  | some other =>
                      rw [unfrozen, hashableName, newName, hashableSource, newSource] at h
                      cases h
                  | none => exact ⟨unfrozen, hashableName, newName, hashableSource, newSource⟩

theorem requireNew_of_accepts {r : Registry} {entity : Entity} (h : r.Accepts entity) :
    r.requireNew entity = .ok () := by
  rw [requireNew, get_eq, getBySource_eq, h.unfrozen, h.hashableName, h.newName,
    h.hashableSource, h.newSource]
  rfl

theorem eval_lift (outcome : Outcome α) (r : Registry) : eval (liftM outcome) r = (outcome, r) :=
  Outcome.run_lift outcome r

theorem eval_enter (r : Registry) (entity : Entity) :
    eval (enter entity) r = match r.requireNew entity with
      | .ok () => (.ok entity, r.add entity)
      | .error failure => (.error failure, r) := by
  change eval (liftM (r.requireNew entity) >>= fun _ => _) r = _
  cases new : r.requireNew entity with
  | ok u => exact Outcome.run_bind_ok (eval_lift (.ok u) r)
  | error failure => exact Outcome.run_bind_error (eval_lift (.error failure) r)

theorem eval_lock (r : Registry) (unfrozen : r.frozen = false) :
    eval lock r = match r.computeFingerprint with
      | .ok fingerprint => (.ok fingerprint, r.sealed fingerprint)
      | .error failure => (.error failure, r) := by
  change eval (if r.frozen then _ else liftM r.computeFingerprint >>= fun _ => _) r = _
  rw [unfrozen]
  cases computed : r.computeFingerprint with
  | ok fingerprint => exact Outcome.run_bind_ok (eval_lift (.ok fingerprint) r)
  | error failure => exact Outcome.run_bind_error (eval_lift (.error failure) r)

theorem does_call (r : Registry) (step : Step) : Does r step (step.answer r) (step.leaves r) := by
  rw [Step.answer, Step.leaves]
  cases step with
  | register entity =>
      have entered := eval_enter r entity
      cases new : r.requireNew entity with
      | ok u =>
          rw [new] at entered
          rw [Step.perform, eval, Outcome.run_bind_ok entered]
          exact .added entity (accepts_of_requireNew new)
      | error failure =>
          rw [new] at entered
          rw [Step.perform, eval, Outcome.run_bind_error entered]
          refine .refused _ failure ?_
          rintro _ ⟨⟩ accepted
          rw [requireNew_of_accepts accepted] at new
          cases new
  | freeze =>
      cases unfrozen : r.frozen with
      | true =>
          have refused : eval lock r =
              (.error (.registryFrozen "Registry is already frozen"), r) := by
            change eval (if r.frozen then _ else _) r = _
            rw [unfrozen]
            rfl
          rw [Step.perform, eval, Outcome.run_bind_error refused]
          exact .refused _ _ nofun
      | false =>
          have locked := eval_lock r unfrozen
          cases computed : r.computeFingerprint with
          | ok fingerprint =>
              rw [computed] at locked
              rw [Step.perform, eval, Outcome.run_bind_ok locked]
              exact .sealed fingerprint unfrozen computed
          | error failure =>
              rw [computed] at locked
              rw [Step.perform, eval, Outcome.run_bind_error locked]
              exact .refused _ failure nofun

/-! ## What every call keeps -/

structure Indexed (r : Registry) : Prop where
  names : r.byName = r.entities.map fun entity => (entity.name, entity)
  sources : r.bySource = r.entities.map fun entity => (entity.source, entity)
  distinctNames : r.byName.Distinct
  distinctSources : r.bySource.Distinct
  hashable : ∀ entity ∈ r.entities, entity.name.hashable = true ∧ entity.source.hashable = true
  sealed : r.frozen = r.fingerprint.isSome
  current : ∀ fingerprint, r.fingerprint = some fingerprint →
    r.computeFingerprint = .ok fingerprint

theorem indexed_empty : Indexed empty where
  names := rfl
  sources := rfl
  distinctNames := .nil
  distinctSources := .nil
  hashable := nofun
  sealed := rfl
  current := nofun

theorem Accepts.byName_add {r : Registry} {entity : Entity} (h : r.Accepts entity) :
    (r.add entity).byName = r.byName ++ [(entity.name, entity)] :=
  Keyed.set_absent entity (by simp [Keyed.has, h.newName])

theorem Accepts.bySource_add {r : Registry} {entity : Entity} (h : r.Accepts entity) :
    (r.add entity).bySource = r.bySource ++ [(entity.source, entity)] :=
  Keyed.set_absent entity (by simp [Keyed.has, h.newSource])

theorem Accepts.entities_add {r : Registry} {entity : Entity} (h : r.Accepts entity) :
    (r.add entity).entities = r.entities ++ [entity] := by
  rw [entities, h.byName_add, List.map_append]
  rfl

namespace Indexed

variable {r : Registry} (indexed : Indexed r)

include indexed

theorem add {entity : Entity} (accepted : r.Accepts entity) : Indexed (r.add entity) where
  names := by
    rw [accepted.entities_add, accepted.byName_add, List.map_append, ← indexed.names]
    rfl
  sources := by
    rw [accepted.entities_add, accepted.bySource_add, List.map_append, ← indexed.sources]
    rfl
  distinctNames := indexed.distinctNames.set _ _
  distinctSources := indexed.distinctSources.set _ _
  hashable other mem := by
    rw [accepted.entities_add, List.mem_append, List.mem_singleton] at mem
    obtain mem | rfl := mem
    · exact indexed.hashable other mem
    · exact ⟨accepted.hashableName, accepted.hashableSource⟩
  sealed := indexed.sealed
  -- A registry that accepts an entity has no fingerprint yet.
  current fingerprint h := by
    have taken := indexed.sealed
    rw [accepted.unfrozen, show r.fingerprint = some fingerprint from h] at taken
    cases taken

theorem freeze {fingerprint : String} (computed : r.computeFingerprint = .ok fingerprint) :
    Indexed (r.sealed fingerprint) where
  names := indexed.names
  sources := indexed.sources
  distinctNames := indexed.distinctNames
  distinctSources := indexed.distinctSources
  hashable := indexed.hashable
  sealed := rfl
  current other h := by
    cases h
    exact computed

theorem leaves (step : Step) : Indexed (step.leaves r) := by
  have does := does_call r step
  generalize step.answer r = answer at does
  generalize step.leaves r = left at does ⊢
  cases does with
  | refused => exact indexed
  | added entity accepted => exact indexed.add accepted
  | sealed fingerprint unfrozen computed => exact indexed.freeze computed

theorem run (steps : List Step) : Indexed (run r steps) := by
  induction steps generalizing r with
  | nil => exact indexed
  | cons step rest ih => exact ih (indexed.leaves step)

theorem get_name {entity : Entity} (mem : entity ∈ r.entities) :
    r.get entity.name = .ok (some entity) := by
  have hashable := (indexed.hashable entity mem).1
  have filed : (entity.name, entity) ∈ r.byName := by
    rw [indexed.names]
    exact List.mem_map_of_mem mem
  rw [get_eq, if_pos hashable,
    indexed.distinctNames.find?_self (Value.sameKey_self hashable) filed]

theorem getBySource_source {entity : Entity} (mem : entity ∈ r.entities) :
    r.getBySource entity.source = .ok (some entity) := by
  have hashable := (indexed.hashable entity mem).2
  have filed : (entity.source, entity) ∈ r.bySource := by
    rw [indexed.sources]
    exact List.mem_map_of_mem mem
  rw [getBySource_eq, if_pos hashable,
    indexed.distinctSources.find?_self (Value.sameKey_self hashable) filed]

theorem apart : r.entities.Pairwise fun a b =>
    a.name.sameKey b.name = false ∧ a.source.sameKey b.source = false := by
  have names := indexed.distinctNames
  have sources := indexed.distinctSources
  rw [indexed.names, Keyed.Distinct, List.pairwise_map] at names
  rw [indexed.sources, Keyed.Distinct, List.pairwise_map] at sources
  exact names.and sources

end Indexed

theorem Indexed.not_accepts_iff {r : Registry} (indexed : Indexed r) {entity : Entity} :
    ¬ r.Accepts entity ↔ r.frozen = true ∨ entity.name.hashable = false ∨
      entity.source.hashable = false ∨ ∃ other ∈ r.entities, other.Clashes entity := by
  have names : r.byName.find? entity.name = none ↔
      ∀ other ∈ r.entities, other.name.sameKey entity.name = false := by
    rw [indexed.names, Keyed.find?, Option.map_eq_none_iff, List.find?_eq_none]
    simp
  have sources : r.bySource.find? entity.source = none ↔
      ∀ other ∈ r.entities, other.source.sameKey entity.source = false := by
    rw [indexed.sources, Keyed.find?, Option.map_eq_none_iff, List.find?_eq_none]
    simp
  constructor
  · intro refused
    by_contra fine
    simp only [not_or, Bool.not_eq_true, Bool.not_eq_false, not_exists, not_and,
      Entity.Clashes] at fine
    obtain ⟨unfrozen, name, source, apart⟩ := fine
    exact refused {
      unfrozen := unfrozen
      hashableName := name
      newName := names.2 fun other mem => (apart other mem).1
      hashableSource := source
      newSource := sources.2 fun other mem => (apart other mem).2 }
  · rintro (frozen | name | source | ⟨other, mem, clash⟩) accepted
    · rw [accepted.unfrozen] at frozen
      cases frozen
    · rw [accepted.hashableName] at name
      cases name
    · rw [accepted.hashableSource] at source
      cases source
    · rcases clash with same | same
      · rw [names.1 accepted.newName other mem] at same
        cases same
      · rw [sources.1 accepted.newSource other mem] at same
        cases same

theorem entities_leaves (r : Registry) (step : Step) :
    (step.leaves r).entities = r.entities ++ (step.registered? r).toList := by
  have does := does_call r step
  unfold Step.registered?
  generalize step.answer r = answer at does ⊢
  generalize step.leaves r = left at does ⊢
  cases does with
  | refused step failure =>
      cases step <;> exact (List.append_nil _).symm
  | added entity accepted => exact accepted.entities_add
  | sealed => exact (List.append_nil _).symm

theorem entities_run (r : Registry) (steps : List Step) :
    (run r steps).entities = r.entities ++ registrations r steps := by
  induction steps generalizing r with
  | nil => exact (List.append_nil _).symm
  | cons step rest ih =>
      rw [run, List.foldl_cons, ← run, ih, entities_leaves, registrations, List.append_assoc]

theorem leaves_of_error {r : Registry} {step : Step} {failure : Failure}
    (failed : step.answer r = .error failure) : step.leaves r = r := by
  have does := does_call r step
  rw [failed] at does
  generalize step.leaves r = left at does ⊢
  cases does with
  | refused => rfl

theorem register_succeeds_iff (r : Registry) (entity : Entity) :
    Step.answer r (.register entity) = .ok () ↔ r.Accepts entity := by
  have does := does_call r (.register entity)
  generalize Step.answer r (.register entity) = answer at does ⊢
  generalize Step.leaves r (.register entity) = left at does
  cases does with
  | refused _ _ taken => exact iff_of_false nofun (taken entity rfl)
  | added _ accepted => exact iff_of_true rfl accepted

theorem leaves_of_accepts {r : Registry} {entity : Entity} (accepted : r.Accepts entity) :
    Step.leaves r (.register entity) = r.add entity := by
  have does := does_call r (.register entity)
  generalize Step.answer r (.register entity) = answer at does
  generalize Step.leaves r (.register entity) = left at does ⊢
  cases does with
  | refused _ _ taken => exact absurd accepted (taken entity rfl)
  | added => rfl

theorem leaves_of_frozen {r : Registry} (frozen : r.frozen = true) (step : Step) :
    step.leaves r = r := by
  have does := does_call r step
  generalize step.answer r = answer at does
  generalize step.leaves r = left at does ⊢
  cases does with
  | refused => rfl
  | added entity accepted =>
      rw [accepted.unfrozen] at frozen
      cases frozen
  | sealed fingerprint unfrozen =>
      rw [unfrozen] at frozen
      cases frozen

theorem run_of_frozen {r : Registry} (frozen : r.frozen = true) (steps : List Step) :
    run r steps = r := by
  induction steps with
  | nil => rfl
  | cons step rest ih => rw [run, List.foldl_cons, leaves_of_frozen frozen, ← run, ih]

/-- After any calls on a new registry, both indexes hold the entities of the registrations
that succeeded, in their order; each is found under its name and its source, and no two
share either.  The registry is frozen exactly if it has a fingerprint, which is that of its
entities.  A registration succeeds exactly if the registry is open and neither key is taken;
a call that fails changes nothing, and nothing changes a frozen registry. -/
theorem indexes_agree (steps : List Step) :
    let r := run empty steps
    r.entities = registrations empty steps ∧
      r.bySource.map Prod.snd = r.entities ∧
      (∀ entity ∈ r.entities, r.get entity.name = .ok (some entity) ∧
        r.getBySource entity.source = .ok (some entity)) ∧
      (r.entities.Pairwise fun a b =>
        a.name.sameKey b.name = false ∧ a.source.sameKey b.source = false) ∧
      r.frozen = r.fingerprint.isSome ∧
      (∀ fingerprint, r.fingerprint = some fingerprint →
        r.computeFingerprint = .ok fingerprint) ∧
      (∀ entity, Step.answer r (.register entity) = .ok () ↔ r.Accepts entity) ∧
      (∀ (step : Step) (failure : Failure), step.answer r = .error failure → step.leaves r = r) ∧
      (r.frozen = true → ∀ more, run r more = r) := by
  intro r
  have indexed : Indexed r := indexed_empty.run steps
  refine ⟨entities_run empty steps, ?_,
    fun entity mem => ⟨indexed.get_name mem, indexed.getBySource_source mem⟩, indexed.apart,
    indexed.sealed, indexed.current, register_succeeds_iff r,
    fun step failure failed => leaves_of_error failed, run_of_frozen⟩
  rw [indexed.sources, List.map_map]
  exact List.map_id _

def bare (name source : String) : Entity :=
  ⟨.str name, .str source, Entity.missingReserved [], Entity.withDefaultDesign (.str name) [],
    .str ""⟩

/-- The third entity clashes with the name of the first, the fourth with its database. -/
theorem indexes_agree_after_clashes :
    let r := run empty [.register (bare "Post" "posts"), .register (bare "User" "users"),
      .register (bare "Post" "notes"), .register (bare "Note" "posts")]
    r.entities = [bare "Post" "posts", bare "User" "users"] ∧
      r.bySource.map Prod.snd = r.entities ∧
      r.get (.str "Post") = .ok (some (bare "Post" "posts")) ∧
      r.getBySource (.str "users") = .ok (some (bare "User" "users")) := by
  intro r
  obtain ⟨-, indexes, found, -⟩ := indexes_agree [.register (bare "Post" "posts"),
    .register (bare "User" "users"), .register (bare "Post" "notes"),
    .register (bare "Note" "posts")]
  exact ⟨rfl, indexes, (found (bare "Post" "posts") (.head _)).1,
    (found (bare "User" "users") (.tail _ (.head _))).2⟩

end Registry

end DocMapper
