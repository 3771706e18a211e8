import DocMapper.Proofs.Store.Memory
import DocMapper.Proofs.Store.Revision
import Mathlib.Data.List.Nodup

/-!
# Generations count writes

A journal follows a database through calls and notes each accepted write with the
revision it was answered.  As long as no identifier loses its current revision, the
generation of that revision is the number of accepted writes, so no revision of the
identifier comes twice.  An identifier loses its revision when a document that
cannot be copied is saved over its tombstone.
-/

namespace DocMapper

inductive Call where
  | save (document : Value)
  | saveBatch (documents : List Value)
  | delete (id : String) (rev : Value)

namespace Call

def documents : Call → List Value
  | .save document => [document]
  | .saveBatch documents => documents
  | .delete .. => []

def leaves (name : String) (m : Memory) : Call → Memory
  | .save document => (StoreM.eval (Memory.save name document) m).2
  | .saveBatch documents => (StoreM.eval (Memory.saveBatch name (.list documents)) m).2
  | .delete id rev => (StoreM.eval (Memory.delete name (.str id) rev) m).2

end Call

structure Journal where
  database : Database
  tokens : Tokens
  /-- The identifier and the new revision of each accepted write, oldest first. -/
  writes : Keyed Value
  /-- Whether an identifier had a current revision and then none. -/
  lost : String → Bool

namespace Journal

def start (tokens : Tokens) : Journal := ⟨.empty, tokens, [], fun _ => false⟩

def writesTo (id : String) (writes : Keyed Value) : List Value :=
  (writes.filter fun w => w.1.sameKey (.str id)).map Prod.snd

def revisions (journal : Journal) (id : String) : List Value := writesTo id journal.writes

def note {α : Type} (journal : Journal) (effect : Effect α) (writes : Keyed Value) : Journal where
  database := effect.database
  tokens := effect.tokens
  writes := journal.writes ++ writes
  lost id := journal.lost id ||
    ((journal.database.revision? id).isSome && (effect.database.revision? id).isNone)

def written : Outcome Entries → Keyed Value
  | .ok fields => [(Database.identifierOf fields, Database.revisionOf fields)]
  | .error _ => []

def deleted (id : String) : Outcome Revision → Keyed Value
  | .ok revision => [(.str id, .str revision.text)]
  | .error _ => []

def save (journal : Journal) (document : Value) : Journal :=
  let effect := journal.database.save journal.tokens document
  journal.note effect (written effect.outcome)

def delete (journal : Journal) (id : String) (rev : Value) : Journal :=
  let effect := journal.database.delete journal.tokens (.str id) rev
  journal.note effect (deleted id effect.outcome)

def saveBatch (journal : Journal) : List Value → Journal
  | [] => journal
  | document :: rest =>
      match (journal.database.saveItem journal.tokens document).outcome with
      | .ok _ => (journal.save document).saveBatch rest
      | .error _ => journal.save document

def call (journal : Journal) : Call → Journal
  | .save document => journal.save document
  | .saveBatch documents => journal.saveBatch documents
  | .delete id rev => journal.delete id rev

def run (journal : Journal) (calls : List Call) : Journal := calls.foldl call journal

/-! ## A journal follows the store -/

theorem saveItem_leaves (db : Database) (tokens : Tokens) (document : Value) :
    (db.saveItem tokens document).database = (db.save tokens document).database ∧
      (db.saveItem tokens document).tokens = (db.save tokens document).tokens := by
  unfold Database.saveItem
  split
  next h => rw [h]; exact ⟨rfl, rfl⟩
  next h => rw [h]; exact ⟨rfl, rfl⟩
  next h => rw [h]; exact ⟨rfl, rfl⟩

theorem saveBatch_leaves (documents : List Value) (journal : Journal) :
    (journal.saveBatch documents).database =
        (journal.database.saveBatch journal.tokens documents).database ∧
      (journal.saveBatch documents).tokens =
        (journal.database.saveBatch journal.tokens documents).tokens := by
  induction documents generalizing journal with
  | nil => exact ⟨rfl, rfl⟩
  | cons document rest ih =>
      obtain ⟨hdb, htokens⟩ := saveItem_leaves journal.database journal.tokens document
      rw [saveBatch, Database.saveBatch]
      cases hitem : journal.database.saveItem journal.tokens document with
      | mk outcome db tokens =>
          rw [hitem] at hdb htokens
          cases outcome with
          | error failure => exact ⟨hdb.symm, htokens.symm⟩
          | ok item =>
              have followed := ih (journal.save document)
              rw [show (journal.save document).database = db from hdb.symm,
                show (journal.save document).tokens = tokens from htokens.symm] at followed
              simp only
              rw [followed.1, followed.2]
              rcases db.saveBatch tokens rest with ⟨_ | _, _, _⟩ <;> exact ⟨rfl, rfl⟩

structure Follows (journal : Journal) (name : String) (m : Memory) : Prop where
  free : m.pendingFailure = none
  found : m.databases.find? (.str name) = some journal.database
  tokens : m.tokens = journal.tokens

theorem follows_keep {α : Type} {journal journal' : Journal} {name : String} {m m' : Memory}
    {effect : Effect α} (h : journal.Follows name m)
    (databases : m'.databases = (m.keep name effect).databases)
    (pending : m'.pendingFailure = m.pendingFailure) (tokens : m'.tokens = effect.tokens)
    (hdb : journal'.database = effect.database) (htokens : journal'.tokens = effect.tokens) :
    journal'.Follows name m' where
  free := pending.trans h.free
  found := by rw [databases, Memory.keep_databases, hdb]
  tokens := tokens.trans htokens.symm

theorem follows_call {journal : Journal} {name : String} {m : Memory}
    (h : journal.Follows name m) (c : Call) :
    (journal.call c).Follows name (c.leaves name m) := by
  cases c with
  | save document =>
      rw [Call.leaves]
      cases hsave : (journal.database.save m.tokens document).outcome with
      | ok fields =>
          rw [Memory.eval_save_ok h.free h.found hsave]
          refine follows_keep h rfl rfl rfl ?_ ?_ <;> rw [h.tokens] <;> rfl
      | error failure =>
          rw [Memory.eval_save_error h.free h.found hsave]
          refine follows_keep h rfl rfl rfl ?_ ?_ <;> rw [h.tokens] <;> rfl
  | saveBatch documents =>
      obtain ⟨hdb, htokens⟩ := saveBatch_leaves documents journal
      rw [Call.leaves, Memory.eval_saveBatch h.free h.found]
      refine follows_keep h rfl rfl rfl ?_ ?_ <;> rw [h.tokens]
      · exact hdb
      · exact htokens
  | delete id rev =>
      rw [Call.leaves, Memory.eval_delete h.free h.found]
      refine follows_keep h rfl rfl rfl ?_ ?_ <;> rw [h.tokens] <;> rfl

theorem follows_run {name : String} (calls : List Call) {journal : Journal} {m : Memory}
    (h : journal.Follows name m) :
    (journal.run calls).Follows name (calls.foldl (Call.leaves name) m) := by
  induction calls generalizing journal m with
  | nil => exact h
  | cons c rest ih => exact ih (follows_call h c)

/-- The history of an identifier fits its current revision: the generations count
its writes, or an earlier revision was lost and the generations lag behind. -/
def Counted (current : Option Revision) (history : List Revision) (lost : Bool) : Prop :=
  if lost then
    history ≠ [] ∧ ∀ revision, current = some revision → revision.generation < history.length
  else
    history.map Revision.generation = List.range' 1 history.length ∧
      current = history.getLast?

theorem generation_getLast? {history : List Revision}
    (h : history.map Revision.generation = List.range' 1 history.length) :
    (history.getLast?.map Revision.generation).getD 0 = history.length := by
  rw [← List.getLast?_map, h, List.getLast?_range']
  cases history.length with
  | zero => rfl
  | succ n =>
      rw [if_neg (Nat.succ_ne_zero n), Option.getD_some]
      omega

theorem Counted.write {current : Option Revision} {history : List Revision} {lost : Bool}
    (h : Counted current history lost) (token : String) :
    Counted (some (.after current token)) (history ++ [.after current token]) lost := by
  cases lost with
  | true =>
      obtain ⟨nonempty, behind⟩ := h
      refine ⟨by simp, fun revision heq => ?_⟩
      cases heq
      rw [Revision.after_generation, List.length_append, List.length_singleton]
      have positive := List.length_pos_of_ne_nil nonempty
      cases current with
      | none =>
          simp only [Option.map_none, Option.getD_none]
          omega
      | some revision =>
          have before := behind revision rfl
          simp only [Option.map_some, Option.getD_some]
          omega
  | false =>
      obtain ⟨counts, rfl⟩ := h
      refine ⟨?_, by rw [List.getLast?_concat]⟩
      rw [List.map_append, counts, List.map_singleton, Revision.after_generation,
        generation_getLast? counts, List.length_append, List.length_singleton,
        List.range'_1_concat, Nat.add_comm]

theorem Counted.drop {current : Option Revision} {history : List Revision} {lost : Bool}
    (h : Counted current history lost) : Counted none history (lost || current.isSome) := by
  cases lost with
  | true => exact ⟨h.1, fun revision heq => by cases heq⟩
  | false =>
      obtain ⟨counts, rfl⟩ := h
      cases hlast : history.getLast? with
      | none => exact ⟨counts, hlast.symm⟩
      | some revision =>
          refine ⟨?_, fun revision heq => by cases heq⟩
          rintro rfl
          cases hlast

/-- What a step does to the current revision of one identifier, and the revisions
of the writes to it that are noted. -/
inductive Moves (before : Option Revision) : Option Revision → List Value → Prop where
  | stay : Moves before before []
  | drop : Moves before none []
  | write (token : String) :
      Moves before (some (.after before token)) [.str (Revision.after before token).text]

theorem writesTo_single (id other : String) (rev : Value) :
    writesTo other [(.str id, rev)] = if id = other then [rev] else [] := by
  by_cases h : id = other <;>
    simp [writesTo, Value.sameKey_str, h]

theorem written_entry (fields : Entries) (id : String) (revision : Revision) :
    written (.ok (Database.filed fields (.str id) revision)) =
      [(.str id, .str revision.text)] := by
  rw [written, Database.identifierOf_filed, Database.revisionOf_filed]

theorem saves_moves {db : Database} {tokens : Tokens} {document : Value}
    {effect : Effect Entries} (h : db.Saves tokens document effect) (id : String) :
    Moves (db.revision? id) (effect.database.revision? id)
      (writesTo id (written effect.outcome)) := by
  cases h with
  | rejected => exact .stay
  | lifted id' =>
      change Moves _ ((db.lift id').revision? id) []
      rw [Database.revision?_lift]
      split
      next heq =>
        subst heq
        cases hlive : db.documents.find? (.str id') with
        | some stored =>
            rw [Database.revision?_live hlive]
            exact .stay
        | none => exact .drop
      · exact .stay
  | filed id' fields revision left supply identified map permitted next =>
      obtain ⟨token, rfl⟩ := next
      rw [written_entry, writesTo_single, Database.revision?_put]
      split
      next heq =>
        subst heq
        exact .write token
      · exact .stay

theorem deletes_moves {db : Database} {tokens : Tokens} {id' : String} {rev : Value}
    {effect : Effect Revision} (h : db.Deletes tokens id' rev effect) (id : String) :
    Moves (db.revision? id) (effect.database.revision? id)
      (writesTo id (deleted id' effect.outcome)) := by
  cases h with
  | rejected => exact .stay
  | buried stored revision left supply live presented next =>
      obtain ⟨token, rfl⟩ := next
      rw [deleted, writesTo_single, Database.revision?_bury, ← Database.revision?_live live]
      split
      next heq =>
        subst heq
        exact .write token
      · exact .stay

structure Kept (journal : Journal) : Prop where
  sound : journal.database.Sound
  counted : ∀ id : String, ∃ history : List Revision,
    journal.revisions id = history.map (fun revision => .str revision.text) ∧
      Counted (journal.database.revision? id) history (journal.lost id)

theorem kept_start (tokens : Tokens) : Kept (start tokens) where
  sound := Database.sound_empty
  counted _ := ⟨[], rfl, rfl, rfl⟩

theorem kept_note {α : Type} {journal : Journal} {effect : Effect α} {writes : Keyed Value}
    (h : Kept journal) (sound : effect.database.Sound)
    (moves : ∀ id, Moves (journal.database.revision? id) (effect.database.revision? id)
      (writesTo id writes)) : Kept (journal.note effect writes) := by
  refine ⟨sound, fun id => ?_⟩
  obtain ⟨history, revisions, counted⟩ := h.counted id
  have appended : (journal.note effect writes).revisions id =
      journal.revisions id ++ writesTo id writes := by
    simp [Journal.revisions, note, writesTo]
  -- What the step does to other identifiers does not matter for this one.
  have step := moves id
  simp only [note] at appended ⊢
  rw [appended, revisions]
  generalize journal.database.revision? id = before at counted step ⊢
  generalize effect.database.revision? id = after at step ⊢
  generalize writesTo id writes = noted at step ⊢
  cases step with
  | stay =>
      refine ⟨history, List.append_nil _, ?_⟩
      cases before <;> simpa using counted
  | drop =>
      refine ⟨history, List.append_nil _, ?_⟩
      simpa using counted.drop
  | write token =>
      refine ⟨history ++ [.after before token], by simp, ?_⟩
      simpa using counted.write token

theorem kept_save {journal : Journal} (h : Kept journal) {document : Value}
    (named : Named document) : Kept (journal.save document) := by
  have saves := Database.save_saves journal.database journal.tokens named
  exact kept_note h (h.sound.save saves) (saves_moves saves)

theorem kept_delete {journal : Journal} (h : Kept journal) (id : String) (rev : Value) :
    Kept (journal.delete id rev) := by
  have deletes := Database.delete_deletes journal.database journal.tokens id rev
  exact kept_note h (h.sound.delete deletes) (deletes_moves deletes)

theorem run_induction {motive : Journal → Prop} (accepts : Value → Prop)
    (save : ∀ journal document, accepts document → motive journal → motive (journal.save document))
    (delete : ∀ journal id rev, motive journal → motive (journal.delete id rev))
    {calls : List Call} (documents : ∀ c ∈ calls, ∀ document ∈ c.documents, accepts document)
    {journal : Journal} (start : motive journal) : motive (journal.run calls) := by
  have batch : ∀ (documents : List Value) (journal : Journal),
      (∀ document ∈ documents, accepts document) → motive journal →
      motive (journal.saveBatch documents) := by
    intro documents
    induction documents with
    | nil => exact fun journal _ h => h
    | cons document rest ih =>
        intro journal all h
        have first := save journal document (all document List.mem_cons_self) h
        unfold saveBatch
        split
        · exact ih _ (fun d mem => all d (List.mem_cons_of_mem _ mem)) first
        · exact first
  induction calls generalizing journal with
  | nil => exact start
  | cons c rest ih =>
      refine ih (fun c mem => documents c (List.mem_cons_of_mem _ mem)) ?_
      have all := documents c List.mem_cons_self
      cases c with
      | save document => exact save journal document (all document List.mem_cons_self) start
      | saveBatch many => exact batch many journal all start
      | delete id rev => exact delete journal id rev start

theorem kept_run {calls : List Call} {journal : Journal}
    (named : ∀ c ∈ calls, ∀ document ∈ c.documents, Named document) (h : Kept journal) :
    Kept (journal.run calls) :=
  run_induction (motive := Kept) Named (fun _ _ named h => kept_save h named)
    (fun _ id rev h => kept_delete h id rev) named h

/-! ## Copyable documents lose nothing -/

theorem lost_note {α : Type} {journal : Journal} {effect : Effect α} {writes : Keyed Value}
    {id : String} (h : journal.lost id = false)
    (kept : ∀ revision, journal.database.revision? id = some revision →
      (effect.database.revision? id).isSome) :
    (journal.note effect writes).lost id = false := by
  change (journal.lost id || _) = false
  rw [h, Bool.false_or]
  cases hrev : journal.database.revision? id with
  | none => rfl
  | some revision => simp [kept revision hrev]

theorem lost_save {journal : Journal} {document : Value}
    (accepted : Named document ∧ document.copyable = true) {id : String}
    (h : journal.lost id = false) : (journal.save document).lost id = false := by
  have saves := Database.save_saves journal.database journal.tokens accepted.1
  refine lost_note h fun revision hrev => ?_
  generalize journal.database.save journal.tokens document = effect at saves ⊢
  cases saves with
  | rejected => simp [hrev]
  | lifted id' failure left supply permitted uncopyable =>
      rw [accepted.2] at uncopyable
      cases uncopyable
  | filed =>
      simp only [Database.revision?_put]
      split
      · rfl
      · simp [hrev]

theorem lost_delete {journal : Journal} (id' : String) (rev : Value) {id : String}
    (h : journal.lost id = false) : (journal.delete id' rev).lost id = false := by
  have deletes := Database.delete_deletes journal.database journal.tokens id' rev
  refine lost_note h fun revision hrev => ?_
  generalize journal.database.delete journal.tokens (.str id') rev = effect at deletes ⊢
  cases deletes with
  | rejected => simp [hrev]
  | buried =>
      simp only [Database.revision?_bury]
      split
      · rfl
      · simp [hrev]

end Journal

def generationOf? : Value → Option Nat
  | .str text => (Revision.ofText? text).map Revision.generation
  | _ => none

def Database.revisionText? (db : Database) (id : String) : Option Value :=
  match db.documents.find? (.str id) with
  | some stored => stored.fields.find? (.str revField)
  | none => (db.tombstones.find? (.str id)).map fun revision => .str revision.text

theorem Database.Sound.revisionText?_eq {db : Database} (sound : db.Sound) (id : String) :
    db.revisionText? id = (db.revision? id).map fun revision => .str revision.text := by
  rw [Database.revisionText?, Database.revision?]
  cases hlive : db.documents.find? (.str id) with
  | some stored => exact (sound.carries hlive).2
  | none => rfl

theorem generationOf?_text (revision : Revision) :
    generationOf? (.str revision.text) = some revision.generation := by
  rw [generationOf?, Revision.ofText?_text]
  rfl

namespace Journal

theorem generation_eq_iff {current : Option Revision} {history : List Revision} {lost : Bool}
    (h : Counted current history lost) (nonempty : history ≠ []) :
    current.map Revision.generation = some history.length ↔ lost = false := by
  cases lost with
  | false =>
      obtain ⟨counts, rfl⟩ := h
      have last := generation_getLast? counts
      rw [List.getLast?_eq_some_getLast nonempty] at last ⊢
      simpa using last
  | true =>
      obtain ⟨-, behind⟩ := h
      cases current with
      | none => simp
      | some revision =>
          have less := behind revision rfl
          simp only [Option.map_some, Option.some.injEq, Bool.true_eq_false, iff_false]
          omega

theorem nodup_of_counted {current : Option Revision} {history : List Revision}
    (h : Counted current history false) :
    (history.map fun revision => Value.str revision.text).Nodup := by
  have generations : (history.map Revision.generation).Nodup := by
    rw [h.1]
    exact List.nodup_range'
  refine (List.Nodup.of_map _ generations).map fun a b heq => ?_
  exact Revision.text_injective (Value.str.inj heq)

/-- In every store reached by saves, batches and deletions from an empty database,
documents are filed under their own identifiers with a revision text, no identifier
is live and deleted at once, and the generation of a current revision is the number
of accepted writes unless the identifier lost its revision before.  Without such a
loss, which takes a document that cannot be copied, no revision comes twice. -/
theorem generation_counts_writes (name : String) {m : Memory} (free : m.pendingFailure = none)
    (found : m.databases.find? (.str name) = some .empty) {calls : List Call}
    (named : ∀ c ∈ calls, ∀ document ∈ c.documents, Named document) :
    let journal := (start m.tokens).run calls
    let db := journal.database
    (calls.foldl (Call.leaves name) m).databases.find? (.str name) = some db ∧
    (∀ key stored, (key, stored) ∈ db.documents →
      ∃ (id : String) (generation : Nat) (token : String), key = .str id ∧
        stored.fields.find? (.str idField) = some (.str id) ∧
        stored.fields.find? (.str revField) =
          some (.str (toString generation ++ "-" ++ token))) ∧
    (∀ id : String, (db.documents.find? (.str id)).isSome →
      db.tombstones.find? (.str id) = none) ∧
    (∀ id : String, journal.revisions id ≠ [] →
      ((db.revisionText? id).bind generationOf? = some (journal.revisions id).length ↔
        journal.lost id = false)) ∧
    (∀ id : String, journal.lost id = false → (journal.revisions id).Nodup) ∧
    ((∀ c ∈ calls, ∀ document ∈ c.documents, document.copyable = true) →
      ∀ id : String, journal.lost id = false) := by
  intro journal db
  have follows : (start m.tokens).Follows name m := ⟨free, found, rfl⟩
  have kept : Kept ((start m.tokens).run calls) := kept_run named (kept_start m.tokens)
  refine ⟨(follows_run calls follows).found, ?_, kept.sound.apart, ?_, ?_, ?_⟩
  · intro key stored mem
    obtain ⟨id, rfl, hid, hrev⟩ := kept.sound.filed key stored mem
    exact ⟨id, stored.revision.generation, stored.revision.token, rfl, hid, hrev⟩
  · intro id written
    obtain ⟨history, revisions, counted⟩ := kept.counted id
    have nonempty : history ≠ [] := by
      rintro rfl
      exact written revisions
    rw [revisions, List.length_map, ← generation_eq_iff counted nonempty,
      kept.sound.revisionText?_eq]
    cases db.revision? id <;> simp [generationOf?_text]
  · intro id kept'
    obtain ⟨history, revisions, counted⟩ := kept.counted id
    rw [revisions]
    rw [kept'] at counted
    exact nodup_of_counted counted
  · intro copyable id
    refine run_induction (motive := fun journal => journal.lost id = false)
      (fun document => Named document ∧ document.copyable = true)
      (fun _ _ accepted h => lost_save accepted h) (fun _ id' rev h => lost_delete id' rev h)
      (fun c mem document mem' => ⟨named c mem document mem', copyable c mem document mem'⟩) ?_
    rfl

/-- A batch with a conflict in it, a deletion and a creation again, although all
tokens are the same. -/
theorem generation_after_recreation :
    let m : Memory := ⟨[(.str "posts", .empty)], none, none, ⟨fun _ => "t", 0⟩, []⟩
    let document : Value := .map [(.str "_id", .str "a")]
    let calls : List Call :=
      [.saveBatch [document, document, .map []], .delete "a" (.str "1-t"), .save document]
    let journal := (start m.tokens).run calls
    journal.revisions "a" = [.str "1-t", .str "2-t", .str "3-t"] ∧
      (journal.database.revisionText? "a").bind generationOf? =
        some (journal.revisions "a").length ∧
      (journal.revisions "a").Nodup := by
  intro m document calls journal
  have given : Named document := fun id h => .inr ⟨"a", (Except.ok.inj h).symm⟩
  have absent : Named (.map []) := fun id h => .inl (Except.ok.inj h).symm
  have named : ∀ c ∈ calls, ∀ document ∈ c.documents, Named document := by
    simp [calls, Call.documents, given, absent]
  have copyable : ∀ c ∈ calls, ∀ document ∈ c.documents, document.copyable = true := by
    decide
  have revisions : journal.revisions "a" = [.str "1-t", .str "2-t", .str "3-t"] := by
    simp only [journal, calls, document, m]
    rfl
  obtain ⟨-, -, -, counts, distinct, lossless⟩ :=
    generation_counts_writes "posts" (m := m) rfl rfl named
  have kept := lossless copyable "a"
  exact ⟨revisions, (counts "a" (by rw [revisions]; simp)).2 kept, distinct "a" kept⟩

/-- A document that cannot be copied takes the tombstone with it, and the next
revision is the first one again. -/
theorem generation_restarts_after_loss :
    let document : Value := .map [(.str "_id", .str "a")]
    let uncopyable : Value := .map [(.str "_id", .str "a"), (.str "x", .readOnly [])]
    let journal := (start ⟨fun _ => "t", 0⟩).run
      [.save document, .delete "a" (.str "1-t"), .save uncopyable, .save document]
    journal.revisions "a" = [.str "1-t", .str "2-t", .str "1-t"] ∧
      (journal.database.revisionText? "a").bind generationOf? = some 1 ∧
      journal.lost "a" = true := by
  exact ⟨rfl, rfl, rfl⟩

end Journal

end DocMapper
