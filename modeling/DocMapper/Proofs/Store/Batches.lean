import DocMapper.Proofs.Store.Filing
import Mathlib.Order.Monotone.Basic

/-!
# Batches that succeed

A batch that ends files the documents that it accepts, as if it had been given no others,
and each document that it refuses leaves the database as it was.  Only a token may have been
drawn for it.
-/

namespace DocMapper

/-- The first tokens that the one supply yields are those of the other one at the places
that are picked, in their order. -/
def Tokens.Picks (pick : Nat → Nat) (tokens supply : Tokens) : Prop :=
  ∀ n, supply.token (supply.drawn + 1 + n) = tokens.token (tokens.drawn + 1 + pick n)

namespace Tokens

variable {pick : Nat → Nat} {tokens supply : Tokens}

def skip (pick : Nat → Nat) (n : Nat) : Nat := pick n + 1

def also (pick : Nat → Nat) : Nat → Nat
  | 0 => 0
  | n + 1 => pick n + 1

def picked (pick : Nat → Nat) (tokens : Tokens) : Tokens :=
  ⟨fun n => tokens.token (tokens.drawn + 1 + pick (n - 1)), 0⟩

theorem picks_picked (pick : Nat → Nat) (tokens : Tokens) :
    Picks pick tokens (picked pick tokens) := by
  intro n
  simp only [picked, Nat.zero_add, Nat.add_sub_cancel_left]

theorem strictMono_skip (mono : StrictMono pick) : StrictMono (skip pick) :=
  fun _ _ less => Nat.succ_lt_succ (mono less)

theorem strictMono_also (mono : StrictMono pick) : StrictMono (also pick) := by
  refine strictMono_nat_of_lt_succ fun n => ?_
  cases n with
  | zero => exact Nat.succ_pos _
  | succ n => exact Nat.succ_lt_succ (mono (Nat.lt_succ_self n))

theorem Picks.of_skip (picks : Picks (skip pick) tokens supply) :
    Picks pick tokens.rest supply := by
  intro n
  rw [picks n, rest, skip]
  exact congrArg tokens.token
    (show tokens.drawn + 1 + (pick n + 1) = tokens.drawn + 1 + 1 + pick n by omega)

theorem Picks.next (picks : Picks (also pick) tokens supply) : supply.next = tokens.next :=
  picks 0

theorem Picks.of_also (picks : Picks (also pick) tokens supply) :
    Picks pick tokens.rest supply.rest := by
  intro n
  have after := picks (n + 1)
  rw [also] at after
  rw [rest, rest, show supply.drawn + 1 + 1 + n = supply.drawn + 1 + (n + 1) by omega, after]
  exact congrArg tokens.token
    (show tokens.drawn + 1 + (pick n + 1) = tokens.drawn + 1 + 1 + pick n by omega)

end Tokens

namespace Database

variable {db db' : Database} {tokens : Tokens} {fields : Entries} {documents : List Entries}
  {items : List BatchItem}

/-- The documents of a batch one after the other: each is filed, or is refused and changes
nothing, although a token may have been drawn for it. -/
inductive Batch : Database → Tokens → List Entries → List BatchItem → Database → Prop where
  | done (db : Database) (tokens : Tokens) : Batch db tokens [] [] db
  | refused {db db' : Database} {tokens : Tokens} {fields : Entries} {documents : List Entries}
      {items : List BatchItem} (reason : Value)
      (rejected : itemOf fields (db.save tokens (.map fields)).outcome =
        .ok (.rejected (identifierOf fields) reason))
      (same : (db.save tokens (.map fields)).database = db)
      (left : (db.save tokens (.map fields)).tokens = (place tokens fields).2)
      (rest : Batch db (place tokens fields).2 documents items db') :
      Batch db tokens (fields :: documents) (.rejected (identifierOf fields) reason :: items) db'
  | filed {db db' : Database} {tokens : Tokens} {fields : Entries} {documents : List Entries}
      {items : List BatchItem} (saved : Entries)
      (accepted : (db.save tokens (.map fields)).outcome = .ok saved)
      (rest : Batch (db.save tokens (.map fields)).database (place tokens fields).2.rest
        documents items db') :
      Batch db tokens (fields :: documents)
        (.saved (identifierOf saved) (revisionOf saved) :: items) db'

theorem batch_of_saveBatch
    (saved : (db.saveBatch tokens (documents.map .map)).outcome = .ok items) :
    Batch db tokens documents items (db.saveBatch tokens (documents.map .map)).database := by
  induction documents generalizing db tokens items with
  | nil =>
      cases saved
      exact .done db tokens
  | cons fields rest ih =>
      have files := db.save_files tokens fields
      generalize effected : db.save tokens (.map fields) = effect at files
      rw [List.map_cons, saveBatch_map effected] at saved ⊢
      cases files with
      | odd | fixed => cases saved
      | stale hashable refused =>
          obtain ⟨others, answered, h⟩ := Outcome.bind_eq_ok.1 saved
          cases h
          exact .refused _ (by rw [effected]; rfl) (by rw [effected]; rfl)
            (by rw [effected]; rfl) (ih answered)
      | filed revision next admitted copyable =>
          obtain ⟨others, answered, h⟩ := Outcome.bind_eq_ok.1 saved
          cases h
          refine .filed (Database.filed fields _ revision) (by rw [effected]) ?_
          rw [effected]
          exact ih answered

theorem Batch.length_eq (batch : Batch db tokens documents items db') :
    items.length = documents.length := by
  induction batch with
  | done => rfl
  | refused _ _ _ _ _ ih => exact congrArg (· + 1) ih
  | filed _ _ _ ih => exact congrArg (· + 1) ih

def accepted (documents : List Entries) (items : List BatchItem) : List Entries :=
  ((documents.zip items).filter fun d => d.2.ok).map Prod.fst

inductive SavesEach : Database → Tokens → List Entries → Database → Prop where
  | done (db : Database) (tokens : Tokens) : SavesEach db tokens [] db
  | save {db db' : Database} {tokens : Tokens} {fields : Entries} {documents : List Entries}
      (saved : Entries) (ok : (db.save tokens (.map fields)).outcome = .ok saved)
      (rest : SavesEach (db.save tokens (.map fields)).database
        (db.save tokens (.map fields)).tokens documents db') :
      SavesEach db tokens (fields :: documents) db'

theorem place_truthy (given : (identifierOf fields).truthy = true) :
    place tokens fields = (identifierOf fields, tokens) := if_pos given

theorem place_drawn (missing : ¬ (identifierOf fields).truthy = true) :
    place tokens fields = (.str tokens.next, tokens.rest) := if_neg missing

theorem picks_refused (tokens : Tokens) (fields : Entries) {pick : Nat → Nat}
    (mono : StrictMono pick) : ∃ pick', StrictMono pick' ∧ ∀ supply : Tokens,
      tokens.Picks pick' supply → (place tokens fields).2.Picks pick supply := by
  by_cases given : (identifierOf fields).truthy = true
  · rw [place_truthy given]
    exact ⟨pick, mono, fun _ picks => picks⟩
  · rw [place_drawn given]
    exact ⟨Tokens.skip pick, Tokens.strictMono_skip mono, fun _ picks => picks.of_skip⟩

theorem picks_filed (tokens : Tokens) (fields : Entries) {pick : Nat → Nat}
    (mono : StrictMono pick) : ∃ pick', StrictMono pick' ∧ ∀ supply : Tokens,
      tokens.Picks pick' supply →
        (place supply fields).1 = (place tokens fields).1 ∧
        (place supply fields).2.next = (place tokens fields).2.next ∧
        (place tokens fields).2.rest.Picks pick (place supply fields).2.rest := by
  by_cases given : (identifierOf fields).truthy = true
  · refine ⟨Tokens.also pick, Tokens.strictMono_also mono, fun supply picks => ?_⟩
    rw [place_truthy given, place_truthy given]
    exact ⟨rfl, picks.next, picks.of_also⟩
  · refine ⟨Tokens.also (Tokens.also pick),
      Tokens.strictMono_also (Tokens.strictMono_also mono), fun supply picks => ?_⟩
    rw [place_drawn given, place_drawn given]
    exact ⟨congrArg Value.str picks.next, picks.of_also.next, picks.of_also.of_also⟩

theorem saveAs_next {supply : Tokens} (next : supply.next = tokens.next) (id document : Value) :
    (db.saveAs supply id document).outcome = (db.saveAs tokens id document).outcome ∧
      (db.saveAs supply id document).database = (db.saveAs tokens id document).database := by
  unfold saveAs
  cases db.permit id document with
  | error failure => exact ⟨rfl, rfl⟩
  | ok previous =>
      simp only [file, next]
      split
      · exact ⟨rfl, rfl⟩
      · exact ⟨rfl, rfl⟩

theorem save_tokens {saved : Entries}
    (ok : (db.save tokens (.map fields)).outcome = .ok saved) :
    (db.save tokens (.map fields)).tokens = (place tokens fields).2.rest := by
  have files := db.save_files tokens fields
  generalize db.save tokens (.map fields) = effect at files ok
  cases files with
  | odd | stale | fixed => cases ok
  | filed => rfl

/-- A batch leads to the same database as saving the accepted documents alone, with the
tokens that are drawn for them. -/
theorem Batch.savesEach (batch : Batch db tokens documents items db') :
    ∃ pick, StrictMono pick ∧ ∀ supply : Tokens, tokens.Picks pick supply →
      SavesEach db supply (accepted documents items) db' := by
  induction batch with
  | done db tokens => exact ⟨id, strictMono_id, fun supply _ => .done db supply⟩
  | @refused db db' tokens fields documents items reason rejected same left rest ih =>
      obtain ⟨pick, mono, saves⟩ := ih
      obtain ⟨pick', mono', leaves⟩ := picks_refused tokens fields mono
      exact ⟨pick', mono', fun supply picks => saves supply (leaves supply picks)⟩
  | @filed db db' tokens fields documents items saved ok rest ih =>
      obtain ⟨pick, mono, saves⟩ := ih
      obtain ⟨pick', mono', leaves⟩ := picks_filed tokens fields mono
      refine ⟨pick', mono', fun supply picks => ?_⟩
      obtain ⟨placed, next, picks⟩ := leaves supply picks
      have same : _ = (db.saveAs (place tokens fields).2 (place tokens fields).1 _).outcome ∧ _ :=
        saveAs_next next _ (.map fields)
      rw [← save_place, ← placed, ← save_place] at same
      have ok' := same.1.trans ok
      refine .save saved ok' ?_
      rw [same.2, save_tokens ok']
      exact saves _ picks

theorem saveBatch_cons_database {item : BatchItem}
    (answered : itemOf fields (db.save tokens (.map fields)).outcome = .ok item)
    (rest : List Value) :
    (db.saveBatch tokens (.map fields :: rest)).database =
      ((db.save tokens (.map fields)).database.saveBatch
        (db.save tokens (.map fields)).tokens rest).database := by
  rw [saveBatch_map rfl, answered]

theorem Batch.refused_at (batch : Batch db tokens documents items db') {i : Nat}
    {item : BatchItem} (listed : items[i]? = some item) (refused : item.ok = false) :
    (db.saveBatch tokens ((documents.take (i + 1)).map .map)).database =
      (db.saveBatch tokens ((documents.take i).map .map)).database := by
  induction batch generalizing i with
  | done => cases listed
  | @refused db db' tokens fields documents items reason rejected same left rest ih =>
      cases i with
      | zero => exact (saveBatch_cons_database rejected []).trans same
      | succ i =>
          rw [List.take_succ_cons, List.take_succ_cons, List.map_cons, List.map_cons,
            saveBatch_cons_database rejected, saveBatch_cons_database rejected, same, left]
          exact ih listed
  | @filed db db' tokens fields documents items saved ok rest ih =>
      have answered : itemOf fields (db.save tokens (.map fields)).outcome =
          .ok (.saved (identifierOf saved) (revisionOf saved)) := by
        rw [ok]
        rfl
      cases i with
      | zero =>
          cases listed
          cases refused
      | succ i =>
          rw [List.take_succ_cons, List.take_succ_cons, List.map_cons, List.map_cons,
            saveBatch_cons_database answered, saveBatch_cons_database answered, save_tokens ok]
          exact ih listed

end Database

end DocMapper
