import DocMapper.Proofs.Store.Accepted
import DocMapper.Proofs.Store.Revision
import DocMapper.Proofs.Write.Prepared

/-!
# Interleaved writes

Any number of callers insert, delete and update documents of one database.  An
update takes two steps, and steps of other callers may fall between them.  The
generation of a document tells an update whether it was overtaken: it grows with
every accepted write and goes on through deletions, so a revision that was
presented once is not presented again, whatever the tokens are.  It does not go on
through the failed creation of a document that cannot be copied.
-/

namespace DocMapper.Write

open StoreM Database

structure Pending where
  entity : Entity
  id : String
  rev : Value
  changes : Entries
  fetched : Entries
  /-- How many writes had been accepted when the document was fetched. -/
  since : Nat

structure Acceptance where
  id : Value
  presented : Value

structure Traffic where
  memory : Memory
  pending : List Pending
  accepted : List Acceptance

inductive Action where
  | insert (entity : Entity) (record returning : Value)
  | delete (entity : Entity) (id : String) (rev : Value)
  | fetch (entity : Entity) (id : String) (rev changes : Value)
  | save (place : Nat)

namespace Pending

def changed (p : Pending) : Entries := applyChanges p.fetched p.changes

def Overtaken (p : Pending) (accepted : List Acceptance) : Prop :=
  ∃ w ∈ accepted.drop p.since, w.id = .str p.id

end Pending

namespace Acceptance

/-- Two writes of one document do not present the same revision. -/
def Apart (w v : Acceptance) : Prop :=
  w.id = v.id → v.presented ≠ .null → w.presented ≠ v.presented

def ofSave (document : Entries) : Outcome Entries → List Acceptance
  | .ok saved => [⟨identifierOf saved, revisionOf document⟩]
  | .error _ => []

def ofDelete (id : String) (rev : Value) (result : Outcome DeleteResult) : List Acceptance :=
  if Write.accepted result then [⟨.str id, rev⟩] else []

def ofInsert (name : String) (m : Memory) (entity : Entity) (record : Value) :
    List Acceptance :=
  match document entity record with
  | .ok fields => ofSave fields (eval (Memory.save name (.map fields)) m).1
  | .error _ => []

end Acceptance

namespace Traffic

def start (m : Memory) : Traffic := ⟨m, [], []⟩

def step (name : String) (t : Traffic) : Action → Traffic
  | .insert entity record returning =>
      ⟨(eval (Write.insert name entity record returning) t.memory).2, t.pending,
        t.accepted ++ Acceptance.ofInsert name t.memory entity record⟩
  | .delete entity id rev =>
      let answer := eval (Write.delete name entity (.str id) rev) t.memory
      ⟨answer.2, t.pending, t.accepted ++ Acceptance.ofDelete id rev answer.1⟩
  | .fetch entity id rev changes =>
      match admissibleChanges entity changes with
      | .error _ => t
      | .ok admitted =>
          match eval (readForUpdate name entity (.str id) rev) t.memory with
          | (.ok fetched, m) =>
              ⟨m, t.pending ++ [⟨entity, id, rev, admitted, fetched, t.accepted.length⟩],
                t.accepted⟩
          | (.error _, m) => { t with memory := m }
  | .save place =>
      match t.pending[place]? with
      | none => t
      | some p =>
          let answer := eval (saveChanged name p.entity (.str p.id) p.rev p.changed) t.memory
          ⟨answer.2, t.pending.eraseIdx place,
            t.accepted ++ Acceptance.ofSave p.changed answer.1⟩

def run (name : String) (t : Traffic) (actions : List Action) : Traffic :=
  actions.foldl (step name) t

end Traffic

/-! ## The invariant -/

/-- The store serves the database, and nothing but callers acts on it. -/
structure Serves (name : String) (db : Database) (m : Memory) : Prop where
  free : m.pendingFailure = none
  calm : m.rival = none
  found : m.databases.find? (.str name) = some db
  supply : ∀ n, m.tokens.token n ≠ ""

def Settled (db : Database) (w : Acceptance) : Prop :=
  ∃ id : String, w.id = .str id ∧
    (w.presented = .null ∨
      ∃ r : Revision, w.presented = .str r.text ∧ r.generation < db.generation id)

/-- The pending update holds the current document, or its generation is behind. -/
structure Tracked (db : Database) (accepted : List Acceptance) (p : Pending)
    (r : Revision) : Prop where
  rev : p.rev = .str r.text
  carries : Carries p.id ⟨p.fetched, r⟩
  reserved : changed? p.changes idField = none ∧ changed? p.changes revField = none
  nonempty : p.id ≠ ""
  since : p.since ≤ accepted.length
  current : ¬ p.Overtaken accepted → db.documents.find? (.str p.id) = some ⟨p.fetched, r⟩
  behind : p.Overtaken accepted → r.generation < db.generation p.id

structure Consistent (name : String) (db : Database) (t : Traffic) : Prop where
  serves : Serves name db t.memory
  sound : db.Sound
  identified : db.Identified
  settled : ∀ w ∈ t.accepted, Settled db w
  once : t.accepted.Pairwise Acceptance.Apart
  tracked : ∀ p ∈ t.pending, ∃ r, Tracked db t.accepted p r

theorem Serves.keep {α β : Type} {name : String} {db : Database} {m : Memory}
    {action : StoreM α} {effect : Effect β} (h : Serves name db m)
    (leaves : Leaves action m (m.keep name effect))
    (supply : effect.tokens.token = m.tokens.token) :
    Serves name effect.database (eval action m).2 := by
  obtain ⟨records, left⟩ := leaves
  rw [left]
  refine ⟨h.free, h.calm, Memory.keep_databases m name effect, fun n => ?_⟩
  change effect.tokens.token n ≠ ""
  rw [supply]
  exact h.supply n

section Invariant

variable {name : String} {db db' : Database} {t : Traffic} {id : String} {presented : Value}

theorem consistent_start {m : Memory} (serves : Serves name db m) (reached : db.Reached) :
    Consistent name db (.start m) where
  serves := serves
  sound := reached.sound
  identified := reached.identified
  settled _ mem := by cases mem
  once := .nil
  tracked _ mem := by cases mem

theorem Consistent.unchanged (h : Consistent name db t) {m : Memory} {pending : List Pending}
    (serves : Serves name db m) (kept : ∀ p ∈ pending, p ∈ t.pending) :
    Consistent name db ⟨m, pending, t.accepted⟩ :=
  { h with serves := serves, tracked := fun p mem => h.tracked p (kept p mem) }

theorem generation_le (written : Written db db' id presented) (other : String) :
    db.generation other ≤ db'.generation other := by
  by_cases same : other = id
  · rw [same, written.next]
    omega
  · exact Nat.le_of_eq (written.generations other same).symm

theorem settled_written (written : Written db db' id presented) {w : Acceptance}
    (h : Settled db w) : Settled db' w := by
  obtain ⟨other, named, presents⟩ := h
  refine ⟨other, named, presents.imp_right ?_⟩
  rintro ⟨r, text, behind⟩
  exact ⟨r, text, Nat.lt_of_lt_of_le behind (generation_le written other)⟩

theorem settled_new (written : Written db db' id presented) :
    Settled db' ⟨.str id, presented⟩ := by
  refine ⟨id, rfl, written.presented.imp_right ?_⟩
  rintro ⟨stored, live, text⟩
  refine ⟨stored.revision, text, ?_⟩
  rw [written.next, generation_live live]
  omega

theorem apart_of_settled (written : Written db db' id presented) {w : Acceptance}
    (h : Settled db w) : w.Apart ⟨.str id, presented⟩ := by
  obtain ⟨other, named, presents⟩ := h
  intro same presenting heq
  obtain rfl : other = id := Value.str.inj (named.symm.trans same)
  obtain null | ⟨r, text, behind⟩ := presents
  · exact presenting (heq.symm.trans null)
  · obtain null | ⟨stored, live, text'⟩ := written.presented
    · exact presenting null
    · have revisions : r = stored.revision := by
        apply Revision.text_injective
        exact Value.str.inj (text.symm.trans (heq.trans text'))
      rw [generation_live live, revisions] at behind
      omega

theorem overtaken_append {p : Pending} {accepted : List Acceptance}
    (since : p.since ≤ accepted.length) (w : Acceptance) :
    p.Overtaken (accepted ++ [w]) ↔ p.Overtaken accepted ∨ w.id = .str p.id := by
  rw [Pending.Overtaken, Pending.Overtaken, List.drop_append_of_le_length since]
  simp [or_and_right, exists_or]

theorem tracked_written (written : Written db db' id presented) {accepted : List Acceptance}
    {p : Pending} {r : Revision} (h : Tracked db accepted p r) :
    Tracked db' (accepted ++ [⟨.str id, presented⟩]) p r := by
  have appended := overtaken_append h.since ⟨.str id, presented⟩
  refine ⟨h.rev, h.carries, h.reserved, h.nonempty, ?_, ?_, ?_⟩
  · rw [List.length_append]
    exact Nat.le_trans h.since (Nat.le_add_right ..)
  · intro fresh
    rw [appended, not_or] at fresh
    rw [written.documents p.id fun same => fresh.2 (congrArg Value.str same.symm)]
    exact h.current fresh.1
  · intro overtaken
    -- This write is the first to overtake the update, or the generation only grows further.
    by_cases before : p.Overtaken accepted
    · exact Nat.lt_of_lt_of_le (h.behind before) (generation_le written p.id)
    · have same : id = p.id := by
        obtain overtaken | same := appended.1 overtaken
        · exact absurd overtaken before
        · exact Value.str.inj same
      have live := h.current before
      rw [← same] at live ⊢
      rw [written.next, generation_live live]
      exact Nat.lt_succ_self _

theorem Consistent.written (h : Consistent name db t) {m : Memory} {pending : List Pending}
    (serves : Serves name db' m) (written : Written db db' id presented)
    (kept : ∀ p ∈ pending, p ∈ t.pending) :
    Consistent name db' ⟨m, pending, t.accepted ++ [⟨.str id, presented⟩]⟩ where
  serves := serves
  sound := written.sound
  identified := written.identified
  settled w mem := by
    obtain mem | mem := List.mem_append.1 mem
    · exact settled_written written (h.settled w mem)
    · rw [List.mem_singleton.1 mem]
      exact settled_new written
  once := by
    refine List.pairwise_append.2 ⟨h.once, List.pairwise_singleton .., fun w mem v mem' => ?_⟩
    rw [List.mem_singleton.1 mem']
    exact apart_of_settled written (h.settled w mem)
  tracked p mem := by
    obtain ⟨r, tracked⟩ := h.tracked p (kept p mem)
    exact ⟨r, tracked_written written tracked⟩

end Invariant

section Steps

variable {name : String} {db : Database} {t : Traffic}

def Action.Admissible : Action → Prop
  | .insert entity record _ => Fits entity record
  | .fetch entity .. => Texts entity
  | _ => True

theorem Consistent.saved (h : Consistent name db t) {fields : Entries}
    (named : Named (.map fields))
    (safe : (Value.map fields).copyable = true ∨ revisionOf fields ≠ .null)
    {m : Memory} {pending : List Pending}
    (serves : Serves name (db.save t.memory.tokens (.map fields)).database m)
    (kept : ∀ p ∈ pending, p ∈ t.pending) :
    ∃ db', Consistent name db' ⟨m, pending, t.accepted ++
      Acceptance.ofSave fields (db.save t.memory.tokens (.map fields)).outcome⟩ := by
  have saves := save_saves db t.memory.tokens named
  obtain ⟨⟨failure, failed⟩, same⟩ | ⟨id, revision, saved, -, written⟩ :=
    save_written h.sound h.identified h.serves.supply saves safe
  · rw [same] at serves
    rw [failed, Acceptance.ofSave, List.append_nil]
    exact ⟨db, h.unchanged serves kept⟩
  · rw [saved, Acceptance.ofSave, identifierOf_filed]
    exact ⟨_, h.written serves written kept⟩

theorem consistent_insert (h : Consistent name db t) {entity : Entity} {record : Value}
    (fits : Fits entity record) (returning : Value) :
    ∃ db', Consistent name db' (t.step name (.insert entity record returning)) := by
  rw [Traffic.step, Acceptance.ofInsert]
  cases hdocument : document entity record with
  | error failure =>
      rw [eval_insert_invalid t.memory name hdocument]
      simp only [List.append_nil]
      exact ⟨db, h⟩
  | ok fields =>
      obtain ⟨named, copyable⟩ := fits fields hdocument
      have supply := (save_saves db t.memory.tokens named).supply_eq
      have leaves := insert_leaves h.serves.free h.serves.found hdocument returning
      simp only [Memory.eval_save_outcome h.serves.free h.serves.found]
      exact h.saved named (.inl copyable) (h.serves.keep leaves supply) fun _ mem => mem

theorem consistent_delete (h : Consistent name db t) (entity : Entity) (id : String)
    (rev : Value) : ∃ db', Consistent name db' (t.step name (.delete entity id rev)) := by
  have deletes := delete_deletes db t.memory.tokens id rev
  have leaves : Leaves (Write.delete name entity (.str id) rev) t.memory _ :=
    write_delete_leaves h.serves.free h.serves.found (.str id) rev
  have serves := h.serves.keep leaves deletes.supply_eq
  rw [Traffic.step]
  simp only [Acceptance.ofDelete, accepted_delete h.serves.free h.serves.found]
  obtain ⟨rejected, same⟩ | ⟨accepted, written⟩ := delete_written h.sound h.identified deletes
  · rw [same] at serves
    simp only [rejected, Bool.false_eq_true, if_false, List.append_nil]
    exact ⟨db, h.unchanged serves fun _ mem => mem⟩
  · simp only [accepted, if_true]
    exact ⟨_, h.written serves written fun _ mem => mem⟩

theorem tracked_fetched (h : Consistent name db t) {entity : Entity} (texts : Texts entity)
    {id : String} {rev changes : Value} {admitted : Entries} {stored : Stored}
    (admissible : admissibleChanges entity changes = .ok admitted)
    (live : db.documents.find? (.str id) = some stored)
    (same : (revisionOf stored.fields).differs rev = false) :
    Tracked db t.accepted ⟨entity, id, rev, admitted, stored.fields, t.accepted.length⟩
      stored.revision := by
  have carries := h.sound.carries live
  have fresh : ¬ Pending.Overtaken
      ⟨entity, id, rev, admitted, stored.fields, t.accepted.length⟩ t.accepted := by
    rintro ⟨w, mem, -⟩
    rw [List.drop_length] at mem
    cases mem
  refine ⟨?_, carries, changed?_reserved texts admissible, ?_, Nat.le_refl _, fun _ => live,
    fun overtaken => absurd overtaken fresh⟩
  · rw [revisionOf, carries.2] at same
    exact text_differs.1 same
  · rintro rfl
    exact Option.some_ne_none stored (live.symm.trans h.identified)

theorem consistent_fetch (h : Consistent name db t) {entity : Entity} (texts : Texts entity)
    (id : String) (rev changes : Value) :
    ∃ db', Consistent name db' (t.step name (.fetch entity id rev changes)) := by
  rw [Traffic.step]
  cases admissible : admissibleChanges entity changes with
  | error failure => exact ⟨db, h⟩
  | ok admitted =>
      obtain ⟨stored, live, same, read⟩ | ⟨failure, records, read⟩ :=
        readForUpdate_cases entity h.serves.free h.serves.calm h.serves.found id rev
      · simp only [read]
        refine ⟨db, { h with tracked := fun p mem => ?_ }⟩
        obtain mem | mem := List.mem_append.1 mem
        · exact h.tracked p mem
        · rw [List.mem_singleton.1 mem]
          exact ⟨stored.revision, tracked_fetched h texts admissible live same⟩
      · simp only [read]
        have serves : Serves name db (logged t.memory records) :=
          ⟨h.serves.free, h.serves.calm, h.serves.found, h.serves.supply⟩
        exact ⟨db, h.unchanged serves fun _ mem => mem⟩

variable {accepted : List Acceptance} {p : Pending} {r : Revision}

theorem find?_changed (p : Pending) (field : String) :
    p.changed.find? (.str field) =
      (changed? p.changes field).or (p.fetched.find? (.str field)) :=
  find?_applyChanges p.fetched p.changes field

theorem identifier_changed (h : Tracked db accepted p r) :
    p.changed.find? (.str idField) = some (.str p.id) := by
  rw [find?_changed, h.reserved.1]
  exact h.carries.1

theorem revision_changed (h : Tracked db accepted p r) :
    revisionOf p.changed = .str r.text := by
  rw [revisionOf, find?_changed, h.reserved.2, Option.none_or, h.carries.2]
  rfl

theorem named_changed (h : Tracked db accepted p r) : Named (.map p.changed) := by
  intro id hid
  have read : identifierOf p.changed = id := Except.ok.inj hid
  rw [identifierOf, identifier_changed h] at read
  exact .inr ⟨p.id, read.symm⟩

theorem ofSave_saveChanged {m : Memory} (serves : Serves name db m) (entity : Entity)
    (id rev : Value) (fields : Entries) :
    Acceptance.ofSave fields (eval (saveChanged name entity id rev fields) m).1 =
      Acceptance.ofSave fields (db.save m.tokens (.map fields)).outcome := by
  have agree := saveChanged_ok_iff entity serves.free serves.found id rev fields
  cases hsave : (db.save m.tokens (.map fields)).outcome with
  | ok saved => rw [(agree saved).2 hsave]
  | error failure =>
      cases hchanged : (eval (saveChanged name entity id rev fields) m).1 with
      | ok saved =>
          have saved' := (agree saved).1 hchanged
          rw [hsave] at saved'
          cases saved'
      | error failure' => rfl

theorem consistent_save (h : Consistent name db t) (place : Nat) :
    ∃ db', Consistent name db' (t.step name (.save place)) := by
  rw [Traffic.step]
  cases hplace : t.pending[place]? with
  | none => exact ⟨db, h⟩
  | some p =>
      obtain ⟨r, tracked⟩ := h.tracked p (List.mem_of_getElem? hplace)
      have named := named_changed tracked
      have presents : revisionOf p.changed ≠ .null := by
        rw [revision_changed tracked]
        exact nofun
      have outcome := ofSave_saveChanged h.serves p.entity (.str p.id) p.rev p.changed
      have leaves := saveChanged_leaves p.entity h.serves.free h.serves.found
        (.str p.id) p.rev p.changed
      have supply := (save_saves db t.memory.tokens named).supply_eq
      simp only [outcome]
      exact h.saved named (.inr presents) (h.serves.keep leaves supply)
        fun _ mem => List.mem_of_mem_eraseIdx mem

theorem consistent_step (h : Consistent name db t) {a : Action} (admissible : a.Admissible) :
    ∃ db', Consistent name db' (t.step name a) := by
  cases a with
  | insert entity record returning => exact consistent_insert h admissible returning
  | delete entity id rev => exact consistent_delete h entity id rev
  | fetch entity id rev changes => exact consistent_fetch h admissible id rev changes
  | save place => exact consistent_save h place

theorem consistent_run (h : Consistent name db t) {actions : List Action}
    (admissible : ∀ a ∈ actions, a.Admissible) :
    ∃ db', Consistent name db' (t.run name actions) := by
  induction actions generalizing db t with
  | nil => exact ⟨db, h⟩
  | cons a rest ih =>
      obtain ⟨db', h'⟩ := consistent_step h (admissible a (List.mem_cons_self ..))
      exact ih h' fun b mem => admissible b (List.mem_cons_of_mem a mem)

/-! ## Saves of updates -/

theorem save_overtaken (h : Tracked db accepted p r) (overtaken : p.Overtaken accepted)
    (tokens : Tokens) :
    db.save tokens (.map p.changed) = .fail (conflict (.str p.id)) db tokens := by
  have denied : db.permit (.str p.id) (.map p.changed) = .error (conflict (.str p.id)) := by
    have read : (Value.map p.changed).get revField = .ok (.str r.text) :=
      congrArg Except.ok (revision_changed h)
    rw [permit_text, read]
    cases hlive : db.documents.find? (.str p.id) with
    | none => rfl
    | some stored =>
        have moved : (Value.str r.text).differs (.str stored.revision.text) = true := by
          rw [← Bool.not_eq_false, differs_text]
          intro same
          have behind := h.behind overtaken
          rw [generation_live hlive, Revision.text_injective (Value.str.inj same)] at behind
          omega
        simp only [bind, Except.bind, moved, if_true]
  rw [save_named db tokens (identifier_changed h) h.nonempty, saveAs, denied]

theorem save_current (h : Tracked db accepted p r) (fresh : ¬ p.Overtaken accepted)
    (tokens : Tokens) :
    db.save tokens (.map p.changed) = db.file tokens (.str p.id) (.map p.changed) (some r) := by
  have live := h.current fresh
  have permitted : db.permit (.str p.id) (.map p.changed) = .ok (some r) := by
    rw [permit_ok_iff, revision?_live live, live]
    exact ⟨rfl, _, rfl, differs_text.2 (revision_changed h)⟩
  rw [save_named db tokens (identifier_changed h) h.nonempty, saveAs, permitted]

/-- An accepted update went from the document that it fetched to the stored one, which
has the changed fields and a new revision. -/
structure Applied (p : Pending) (before after : Database) (stored : Entries) : Prop where
  fetched : ∃ r : Revision, before.documents.find? (.str p.id) = some ⟨p.fetched, r⟩ ∧
    p.rev = .str r.text ∧ revisionOf p.fetched = p.rev
  saved : ∃ r : Revision, after.documents.find? (.str p.id) = some ⟨stored, r⟩ ∧
    stored = p.changed.set (.str revField) (.str r.text) ∧ p.rev ≠ .str r.text
  fields : ∀ field : String, field ≠ revField → stored.find? (.str field) =
    (changed? p.changes field).or (p.fetched.find? (.str field))

theorem applied_of_save (h : Tracked db accepted p r) (fresh : ¬ p.Overtaken accepted)
    {tokens : Tokens} {stored : Entries}
    (accepts : (db.save tokens (.map p.changed)).outcome = .ok stored) :
    Applied p db (db.save tokens (.map p.changed)).database stored := by
  rw [save_current h fresh, file_map] at accepts ⊢
  split at accepts
  · rw [if_pos ‹_›]
    have same : filed p.changed (.str p.id) (.after (some r) tokens.next) =
        p.changed.set (.str revField) (.str (Revision.after (some r) tokens.next).text) := by
      rw [filed, Keyed.set_eq_self (identifier_changed h)]
    obtain rfl := Except.ok.inj accepts
    refine ⟨⟨r, h.current fresh, h.rev, ?_⟩, ⟨.after (some r) tokens.next, ?_, same, ?_⟩, ?_⟩
    · rw [revisionOf, h.carries.2, h.rev]
      rfl
    · exact (Keyed.find?_set_text ..).trans (if_pos rfl)
    · rw [h.rev]
      intro text
      have generations := congrArg Revision.generation
        (Revision.text_injective (Value.str.inj text))
      rw [Revision.after_generation] at generations
      simp only [Option.map_some, Option.getD_some] at generations
      omega
    · intro field other
      rw [same, Keyed.find?_set_text, if_neg (Ne.symm other), find?_changed]
  · cases accepts

theorem accepted_of_copyable (h : Tracked db accepted p r) (fresh : ¬ p.Overtaken accepted)
    (copyable : (Value.map p.changed).copyable = true) (tokens : Tokens) :
    ∃ stored, (db.save tokens (.map p.changed)).outcome = .ok stored := by
  rw [save_current h fresh, file_map, if_pos copyable]
  exact ⟨_, rfl⟩

end Steps

/-- In every schedule whose inserted documents can be copied, no two accepted writes of
a document present the same revision.  The second step of an update that was overtaken
fails and changes nothing.  Otherwise the document is still the one that was fetched, and
the step replaces it by the changed one. -/
theorem no_lost_update {name : String} {db : Database} {m : Memory}
    (serves : Serves name db m) (reached : db.Reached) {actions : List Action}
    (admissible : ∀ a ∈ actions, a.Admissible) :
    let t := (Traffic.start m).run name actions
    t.accepted.Pairwise Acceptance.Apart ∧
    ∃ before, t.memory.databases.find? (.str name) = some before ∧
    ∀ p ∈ t.pending,
      let saving := eval (saveChanged name p.entity (.str p.id) p.rev p.changed) t.memory
      (p.Overtaken t.accepted →
        saving = (.error (Staleness.overtaken.failure p.entity (.str p.id) p.rev), t.memory)) ∧
      (¬ p.Overtaken t.accepted → (Value.map p.changed).copyable = true →
        ∃ stored, saving.1 = .ok stored) ∧
      ∀ stored, saving.1 = .ok stored →
        ∃ after, saving.2.databases.find? (.str name) = some after ∧
          Applied p before after stored := by
  intro t
  obtain ⟨before, consistent⟩ := consistent_run (consistent_start serves reached) admissible
  obtain ⟨serves, -, -, -, once, tracked⟩ := consistent
  refine ⟨once, before, serves.found, fun p mem => ?_⟩
  obtain ⟨r, tracked⟩ := tracked p mem
  have agree := saveChanged_ok_iff p.entity serves.free serves.found
    (.str p.id) p.rev p.changed
  have overtaken : p.Overtaken t.accepted →
      eval (saveChanged name p.entity (.str p.id) p.rev p.changed) t.memory =
        (.error (Staleness.overtaken.failure p.entity (.str p.id) p.rev), t.memory) :=
    fun h => saveChanged_conflict serves.free serves.found _ _ (save_overtaken tracked h _)
  refine ⟨overtaken, fun fresh copyable => ?_, fun stored saved => ?_⟩
  · obtain ⟨stored, saved⟩ := accepted_of_copyable tracked fresh copyable t.memory.tokens
    exact ⟨stored, (agree stored).2 saved⟩
  · have fresh : ¬ p.Overtaken t.accepted := by
      intro h
      rw [overtaken h] at saved
      cases saved
    obtain ⟨records, left⟩ := saveChanged_leaves p.entity serves.free serves.found
      (.str p.id) p.rev p.changed
    refine ⟨(before.save t.memory.tokens (.map p.changed)).database, ?_,
      applied_of_save tracked fresh ((agree stored).1 saved)⟩
    rw [left]
    exact Memory.keep_databases ..

/-- One update fetched the document before a deletion and a creation again, the other
one after; all tokens are the same. -/
theorem update_across_recreation :
    let post : Entity := ⟨.str "Post", .str "posts",
      [.plain "_id" .binaryId, .plain "_rev" .string, .plain "title" .string], [], .null⟩
    let record (title : String) : Value := .map [(.str "_id", .str "a"), (.str "title", .str title)]
    let change (title : String) : Value := .map [(.str "title", .str title)]
    let m : Memory := ⟨[(.str "posts", .empty)], none, none, ⟨fun _ => "t", 0⟩, []⟩
    let actions : List Action :=
      [.insert post (record "one") (.list []), .fetch post "a" (.str "1-t") (change "two"),
        .delete post "a" (.str "1-t"), .insert post (record "three") (.list []),
        .fetch post "a" (.str "3-t") (change "four")]
    let t := (Traffic.start m).run "posts" actions
    let saving (p : Pending) :=
      eval (saveChanged "posts" p.entity (.str p.id) p.rev p.changed) t.memory
    ∃ early late, t.pending = [early, late] ∧
      saving early = (.error (Staleness.overtaken.failure post (.str "a") (.str "1-t")), t.memory) ∧
      ∃ stored, (saving late).1 = .ok stored ∧
        stored.find? (.str "title") = some (.str "four") := by
  intro post record change m actions t saving
  let pending (rev old new : String) (since : Nat) : Pending :=
    ⟨post, "a", .str rev, [(.str "title", .str new)],
      [(.str "_id", .str "a"), (.str "title", .str old), (.str "_rev", .str rev)], since⟩
  have fetched : t.pending = [pending "1-t" "one" "two" 1, pending "3-t" "three" "four" 3] := by
    simp only [t, actions, m, post, record, change, pending]
    rfl
  have accepted : t.accepted =
      [⟨.str "a", .null⟩, ⟨.str "a", .str "1-t"⟩, ⟨.str "a", .null⟩] := by
    simp only [t, actions, m, post, record, change]
    rfl
  have supply : ∀ n, m.tokens.token n ≠ "" := fun _ => (by decide : "t" ≠ "")
  have serves : Serves "posts" .empty m := ⟨rfl, rfl, rfl, supply⟩
  have reached : Database.empty.Reached := ⟨m.tokens, [], supply, List.forall_mem_nil _, rfl⟩
  have texts : Texts post := by simp [Texts, post, Field.plain, Value.isText]
  have fits : ∀ title, Fits post (record title) := by
    intro title
    refine fits_of_copyable texts (by simp [post, Field.plain]) rfl fun fields h => ?_
    cases h
    exact fun id hid => .inr ⟨"a", (Except.ok.inj hid).symm⟩
  have admissible : ∀ a ∈ actions, a.Admissible := by
    simp [actions, Action.Admissible, fits, texts]
  obtain ⟨-, before, -, saves⟩ := no_lost_update serves reached admissible
  obtain ⟨overtaken, -⟩ := saves (pending "1-t" "one" "two" 1) (by rw [fetched]; simp)
  obtain ⟨-, accepts, applied⟩ := saves (pending "3-t" "three" "four" 3) (by rw [fetched]; simp)
  have fresh : ¬ (pending "3-t" "three" "four" 3).Overtaken t.accepted := by
    rw [accepted]
    rintro ⟨write, later, -⟩
    cases later
  obtain ⟨stored, saved⟩ := accepts fresh rfl
  obtain ⟨after, -, applied⟩ := applied stored saved
  refine ⟨_, _, fetched, overtaken ?_, stored, saved, ?_⟩
  · rw [accepted]
    exact ⟨⟨.str "a", .str "1-t"⟩, List.mem_cons_self .., rfl⟩
  · rw [applied.fields _ (by decide)]
    rfl

/-- A creation that fails in being copied takes the tombstone with it.  After the next one
the overtaken update is saved: its revision is presented again, and the document is lost. -/
theorem update_saved_after_loss :
    let post : Entity := ⟨.str "Post", .str "posts",
      [.plain "_id" .binaryId, .plain "_rev" .string, .plain "title" .string], [], .null⟩
    let record (title : Value) : Value := .map [(.str "_id", .str "a"), (.str "title", title)]
    let m : Memory := ⟨[(.str "posts", .empty)], none, none, ⟨fun _ => "t", 0⟩, []⟩
    let t := (Traffic.start m).run "posts"
      [.insert post (record (.str "one")) (.list []),
        .fetch post "a" (.str "1-t") (.map [(.str "title", .str "two")]),
        .delete post "a" (.str "1-t"),
        .insert post (record (.viewRef (.readOnly []))) (.list []),
        .insert post (record (.str "three")) (.list [])]
    let title (t : Traffic) : Option Value := do
      let db ← t.memory.databases.find? (.str "posts")
      let stored ← db.documents.find? (.str "a")
      stored.fields.find? (.str "title")
    let saved := t.step "posts" (.save 0)
    ∃ p, t.pending = [p] ∧ p.Overtaken t.accepted ∧
      p.fetched.find? (.str "title") = some (.str "one") ∧
      title t = some (.str "three") ∧ title saved = some (.str "two") ∧
      saved.accepted.length = t.accepted.length + 1 ∧
      ¬ saved.accepted.Pairwise Acceptance.Apart := by
  intro post record m t title saved
  let p : Pending := ⟨post, "a", .str "1-t", [(.str "title", .str "two")],
    [(.str "_id", .str "a"), (.str "title", .str "one"), (.str "_rev", .str "1-t")], 1⟩
  have pending : t.pending = [p] := by
    simp only [t, m, post, record, p]
    rfl
  have accepted : t.accepted =
      [⟨.str "a", .null⟩, ⟨.str "a", .str "1-t"⟩, ⟨.str "a", .null⟩] := by
    simp only [t, m, post, record]
    rfl
  have again : saved.accepted = t.accepted ++ [⟨.str "a", .str "1-t"⟩] := by
    simp only [saved, t, m, post, record]
    rfl
  have newest : title t = some (.str "three") := by
    simp only [title, t, m, post, record]
    rfl
  have lost : title saved = some (.str "two") := by
    simp only [title, saved, t, m, post, record]
    rfl
  refine ⟨p, pending, ?_, rfl, newest, lost, ?_, ?_⟩
  · rw [accepted]
    exact ⟨⟨.str "a", .str "1-t"⟩, List.mem_cons_self .., rfl⟩
  · rw [again, List.length_append]
    rfl
  · intro apart
    rw [again, accepted] at apart
    have deletion : (⟨.str "a", .str "1-t"⟩ : Acceptance) ∈
        [⟨.str "a", .null⟩, ⟨.str "a", .str "1-t"⟩, ⟨.str "a", .null⟩] := by simp
    have differ := (List.pairwise_append.1 apart).2.2 _ deletion _ (List.mem_singleton.2 rfl)
    exact differ rfl nofun rfl

/-- An update that nobody interrupts is its two steps, one right after the other. -/
theorem update_steps (name : String) (entity : Entity) (id : String)
    (rev changes returning : Value) (m : Memory) :
    (eval (Write.update name entity (.str id) rev changes returning) m).2 =
      ((Traffic.start m).run name [.fetch entity id rev changes, .save 0]).memory := by
  unfold Write.update
  simp only [Traffic.run, List.foldl_cons, List.foldl_nil, Traffic.step]
  cases admissible : admissibleChanges entity changes with
  | error failure =>
      rw [eval_bind_error m (eval_lift m _)]
      rfl
  | ok admitted =>
      rw [eval_bind_ok m (eval_lift m _)]
      simp only [Traffic.start]
      rcases read : eval (readForUpdate name entity (.str id) rev) m with ⟨failure | fetched, m'⟩
      · rw [eval_bind_error m read]
        rfl
      · rw [eval_bind_ok m read]
        simp only [List.nil_append, List.getElem?_cons_zero, Pending.changed]
        generalize applyChanges fetched admitted = changed
        rcases saved : eval (saveChanged name entity (.str id) rev changed) m' with
          ⟨failure | stored, m''⟩
        · rw [eval_bind_error m' saved]
        · rw [eval_bind_ok m' saved]
          -- Decoding the answer leaves the store alone, whether or not it fails.
          generalize (do decodeDocument entity.fields (.map stored) (← returnedNames returning)) =
            returned
          cases returned <;> rfl

end DocMapper.Write
