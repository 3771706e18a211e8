import DocMapper.Failure
import Mathlib.Data.List.Forall2

/-!
# Outcomes

A chain of steps succeeds exactly when each of its steps does.  What is known of the end of
each step, be it a result or a failure, carries over to the chain.  Steps on a state run one
after the other, up to the first failure.
-/

namespace DocMapper.Outcome

variable {α β : Type}

theorem bind_eq_ok {outcome : Outcome α} {next : α → Outcome β} {b : β} :
    outcome >>= next = .ok b ↔ ∃ a, outcome = .ok a ∧ next a = .ok b := by
  cases outcome with
  | error failure => simp [bind, Except.bind]
  | ok a => simp [bind, Except.bind]

theorem bind_eq_error {outcome : Outcome α} {next : α → Outcome β} {failure : Failure} :
    outcome >>= next = .error failure ↔
      outcome = .error failure ∨ ∃ a, outcome = .ok a ∧ next a = .error failure := by
  cases outcome with
  | error failure => simp [bind, Except.bind]
  | ok a => simp [bind, Except.bind]

theorem bind_pure_eq_error {outcome : Outcome α} {f : α → β} {failure : Failure}
    (h : (do return f (← outcome)) = .error failure) : outcome = .error failure := by
  rcases bind_eq_error.1 h with failed | ⟨a, -, h⟩
  · exact failed
  · cases h

theorem exists_bind_pure {outcome : Outcome α} {f : α → β} :
    (∃ b, (do return f (← outcome)) = Except.ok b) ↔ ∃ a, outcome = .ok a := by
  cases outcome with
  | error failure => simp [bind, Except.bind]
  | ok a => simp [bind, Except.bind, pure, Except.pure]

theorem filterAuxM_ok {test : α → Outcome Bool} {accepts : α → Bool} {xs : List α}
    (h : ∀ x ∈ xs, test x = .ok (accepts x)) (kept : List α) :
    xs.filterAuxM test kept = .ok ((xs.filter accepts).reverse ++ kept) := by
  induction xs generalizing kept with
  | nil => rfl
  | cons x xs ih =>
      have first : test x = .ok (accepts x) := h x List.mem_cons_self
      have others := ih (fun x hx => h x (List.mem_cons_of_mem _ hx))
      rw [List.filterAuxM, first]
      change xs.filterAuxM test (cond (accepts x) (x :: kept) kept) = _
      rw [others]
      cases hx : accepts x <;> simp [hx]

theorem filterM_ok {test : α → Outcome Bool} {accepts : α → Bool} {xs : List α}
    (h : ∀ x ∈ xs, test x = .ok (accepts x)) :
    xs.filterM test = .ok (xs.filter accepts) := by
  rw [List.filterM, filterAuxM_ok h]
  simp [bind, Except.bind, pure, Except.pure]

theorem mapM_cons_ok {f : α → Outcome β} {x : α} {xs : List α} {bs : List β} :
    (x :: xs).mapM f = .ok bs ↔
      ∃ b rest, f x = .ok b ∧ xs.mapM f = .ok rest ∧ bs = b :: rest := by
  rw [List.mapM_cons, bind_eq_ok]
  refine exists_congr fun b => ?_
  rw [bind_eq_ok]
  constructor
  · rintro ⟨hb, rest, hrest, h⟩
    cases h
    exact ⟨rest, hb, hrest, rfl⟩
  · rintro ⟨rest, hb, hrest, rfl⟩
    exact ⟨hb, rest, hrest, rfl⟩

theorem mapM_ok {f : α → Outcome β} {xs : List α} {bs : List β}
    (h : List.Forall₂ (fun x b => f x = .ok b) xs bs) : xs.mapM f = .ok bs := by
  induction h with
  | nil => rfl
  | cons first _ rest => exact mapM_cons_ok.2 ⟨_, _, first, rest, rfl⟩

theorem mapM_error {f : α → Outcome β} {before after : List α} {x : α} {failure : Failure}
    (passed : ∀ y ∈ before, ∃ b, f y = .ok b) (failed : f x = .error failure) :
    (before ++ x :: after).mapM f = .error failure := by
  induction before with
  | nil => exact bind_eq_error.2 (.inl failed)
  | cons y before ih =>
      obtain ⟨⟨b, first⟩, others⟩ := List.forall_mem_cons.1 passed
      rw [List.cons_append, List.mapM_cons, first]
      exact bind_eq_error.2 (.inr ⟨b, rfl, bind_eq_error.2 (.inl (ih others))⟩)

theorem mem_of_mapM {f : α → Outcome β} {xs : List α} {bs : List β} (h : xs.mapM f = .ok bs) :
    (∀ x ∈ xs, ∃ b ∈ bs, f x = .ok b) ∧ ∀ b ∈ bs, ∃ x ∈ xs, f x = .ok b := by
  induction xs generalizing bs with
  | nil =>
      cases h
      exact ⟨nofun, nofun⟩
  | cons x xs ih =>
      obtain ⟨b, rest, first, others, rfl⟩ := mapM_cons_ok.1 h
      obtain ⟨left, right⟩ := ih others
      constructor
      · rintro y (_ | ⟨_, mem⟩)
        · exact ⟨b, List.mem_cons_self, first⟩
        · obtain ⟨c, mem, hc⟩ := left y mem
          exact ⟨c, List.mem_cons_of_mem b mem, hc⟩
      · rintro c (_ | ⟨_, mem⟩)
        · exact ⟨x, List.mem_cons_self, first⟩
        · obtain ⟨y, mem, hy⟩ := right c mem
          exact ⟨y, List.mem_cons_of_mem x mem, hy⟩

theorem mapM_congr {f g : α → Outcome β} {xs : List α} (h : ∀ x ∈ xs, f x = g x) :
    xs.mapM f = xs.mapM g := by
  induction xs with
  | nil => rfl
  | cons x xs ih =>
      obtain ⟨first, others⟩ := List.forall_mem_cons.1 h
      rw [List.mapM_cons, List.mapM_cons, first, ih others]

theorem exists_mapM_ok {f : α → Outcome β} {xs : List α} (h : ∀ x ∈ xs, ∃ b, f x = .ok b) :
    ∃ bs, xs.mapM f = .ok bs := by
  induction xs with
  | nil => exact ⟨[], rfl⟩
  | cons x xs ih =>
      obtain ⟨b, hb⟩ := h x List.mem_cons_self
      obtain ⟨bs, hbs⟩ := ih fun y hy => h y (List.mem_cons_of_mem x hy)
      exact ⟨b :: bs, mapM_cons_ok.2 ⟨b, bs, hb, hbs, rfl⟩⟩

theorem exists_mapM_ok_iff {f : α → Outcome β} {xs : List α} :
    (∃ bs, xs.mapM f = .ok bs) ↔ ∀ x ∈ xs, ∃ b, f x = .ok b := by
  refine ⟨fun ⟨bs, all⟩ x mem => ?_, exists_mapM_ok⟩
  obtain ⟨b, -, one⟩ := (mem_of_mapM all).1 x mem
  exact ⟨b, one⟩

theorem mapM_flatten_nil {f : α → Outcome (List β)} {xs : List α} :
    (∃ found, xs.mapM f = .ok found ∧ found.flatten = []) ↔ ∀ x ∈ xs, f x = .ok [] := by
  constructor
  · rintro ⟨found, all, nothing⟩ x mem
    obtain ⟨b, given, step⟩ := (mem_of_mapM all).1 x mem
    rw [step, List.flatten_eq_nil_iff.1 nothing b given]
  · intro steps
    obtain ⟨found, all⟩ := exists_mapM_ok fun x mem => ⟨[], steps x mem⟩
    refine ⟨found, all, List.flatten_eq_nil_iff.2 fun b given => ?_⟩
    obtain ⟨x, mem, step⟩ := (mem_of_mapM all).2 b given
    exact Except.ok.inj (step.symm.trans (steps x mem))

theorem foldlM_keeps {f : β → α → Outcome β} {xs : List α} {motive : β → Prop} {start last : β}
    (run : xs.foldlM f start = .ok last) (holds : motive start)
    (keeps : ∀ x ∈ xs, ∀ b b', f b x = .ok b' → motive b → motive b') : motive last := by
  induction xs generalizing start with
  | nil =>
      cases run
      exact holds
  | cons x xs ih =>
      obtain ⟨first, others⟩ := List.forall_mem_cons.1 keeps
      rw [List.foldlM_cons] at run
      obtain ⟨next, step, run⟩ := bind_eq_ok.1 run
      exact ih run (first start next step holds) others

/-- What holds of the result of a step that succeeds, and of the failure of one that fails. -/
def Ends (result : α → Prop) (failure : Failure → Prop) : Outcome α → Prop
  | .ok a => result a
  | .error f => failure f

namespace Ends

variable {P P' : α → Prop} {Q : β → Prop} {E E' : Failure → Prop} {outcome : Outcome α}

theorem bind {next : α → Outcome β} (first : Ends P E outcome)
    (others : ∀ a, P a → Ends Q E (next a)) : Ends Q E (outcome >>= next) := by
  cases outcome with
  | ok a => exact others a first
  | error f => exact first

theorem map {f : α → β} (ends : Ends (fun a => Q (f a)) E outcome) :
    Ends Q E (f <$> outcome) := by
  cases outcome with
  | ok a => exact ends
  | error f => exact ends

theorem imp (ends : Ends P E outcome) (result : ∀ a, P a → P' a)
    (failure : ∀ f, E f → E' f) : Ends P' E' outcome := by
  cases outcome with
  | ok a => exact result a ends
  | error f => exact failure f ends

theorem fails (ends : Ends P E outcome) (failure : ∀ f, E f → E' f) : Ends P E' outcome :=
  ends.imp (fun _ => id) failure

theorem self (ends : Ends P E outcome) : Ends (fun a => P a ∧ outcome = .ok a) E outcome := by
  cases outcome with
  | ok a => exact ⟨ends, rfl⟩
  | error f => exact ends

theorem mapM {f : α → Outcome β} {R : α → β → Prop} {xs : List α}
    (each : ∀ x ∈ xs, Ends (R x) E (f x)) : Ends (List.Forall₂ R xs) E (xs.mapM f) := by
  induction xs with
  | nil => exact .nil
  | cons x xs ih =>
      obtain ⟨first, others⟩ := List.forall_mem_cons.1 each
      rw [List.mapM_cons]
      exact first.bind fun b hb => (ih others).bind fun bs hbs => .cons hb hbs

theorem mapM_unless {f : α → Outcome β} {blocks : α → Prop} {xs : List α}
    (each : ∀ x ∈ xs, Ends (fun _ => ¬ blocks x) (fun failure => blocks x ∧ E failure) (f x)) :
    Ends (fun _ => ¬ ∃ x ∈ xs, blocks x) (fun failure => (∃ x ∈ xs, blocks x) ∧ E failure)
      (xs.mapM f) := by
  refine (mapM (R := fun x _ => ¬ blocks x) (E := fun failure => (∃ x ∈ xs, blocks x) ∧ E failure)
    fun x mem => (each x mem).fails ?_).imp ?_ fun _ => id
  · rintro failure ⟨blocked, failed⟩
    exact ⟨⟨x, mem, blocked⟩, failed⟩
  · rintro bs free ⟨x, mem, blocked⟩
    obtain ⟨i, bound, rfl⟩ := List.getElem_of_mem mem
    exact free.get bound (free.length_eq ▸ bound) blocked

end Ends

theorem run_bind {σ : Type} (action : ExceptT Failure (StateM σ) α)
    (next : α → ExceptT Failure (StateM σ) β) (s : σ) :
    ((action >>= next).run.run s : Outcome β × σ) =
      match (action.run.run s : Outcome α × σ) with
      | (.ok a, s) => (next a).run.run s
      | (.error failure, s) => (.error failure, s) := by
  change (match (action.run.run s : Outcome α × σ) with
    | (outcome, s) => (ExceptT.bindCont next outcome).run s) = _
  rcases action.run.run s with ⟨failure | a, s'⟩ <;> rfl

theorem run_bind_ok {σ : Type} {action : ExceptT Failure (StateM σ) α}
    {next : α → ExceptT Failure (StateM σ) β} {s s' : σ} {a : α}
    (h : (action.run.run s : Outcome α × σ) = (.ok a, s')) :
    ((action >>= next).run.run s : Outcome β × σ) = (next a).run.run s' := by
  rw [run_bind, h]

theorem run_bind_error {σ : Type} {action : ExceptT Failure (StateM σ) α}
    {next : α → ExceptT Failure (StateM σ) β} {s s' : σ} {failure : Failure}
    (h : (action.run.run s : Outcome α × σ) = (.error failure, s')) :
    ((action >>= next).run.run s : Outcome β × σ) = (.error failure, s') := by
  rw [run_bind, h]

theorem run_tryCatch {σ : Type} (action : ExceptT Failure (StateM σ) α)
    (handler : Failure → ExceptT Failure (StateM σ) α) (s : σ) :
    ((tryCatch action handler).run.run s : Outcome α × σ) =
      match (action.run.run s : Outcome α × σ) with
      | (.ok a, s) => (.ok a, s)
      | (.error failure, s) => (handler failure).run.run s := by
  rcases h : (action.run.run s : Outcome α × σ) with ⟨failure | a, s'⟩
  all_goals
    have step : (action : StateM σ (Outcome α)) s = _ := h
    simp only [tryCatch, tryCatchThe, MonadExcept.tryCatch, MonadExceptOf.tryCatch,
      ExceptT.tryCatch, ExceptT.run, ExceptT.mk, StateT.run, bind, StateT.bind, step]
  rfl

theorem run_lift {σ : Type} (outcome : Outcome α) (s : σ) :
    ((liftM outcome : ExceptT Failure (StateM σ) α).run.run s : Outcome α × σ) =
      (outcome, s) := by
  cases outcome <;> rfl

end DocMapper.Outcome
