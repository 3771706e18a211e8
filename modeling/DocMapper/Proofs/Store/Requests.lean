import DocMapper.Proofs.Store.Batches
import DocMapper.Proofs.Write.Raised

/-!
# Requests to a store

A request raises the failure that is pending, or fails since its database is missing, or
does to that database what its operation does.  A request that fails leaves the databases as they
were unless a document was taken before it failed.
-/

namespace DocMapper

def Effect.forget {α : Type} (effect : Effect α) : Effect Unit :=
  ⟨do let _ ← effect.outcome, effect.database, effect.tokens⟩

namespace Memory

open StoreM Database

inductive Request where
  | openDatabase (name : String)
  | save (name : String) (fields : Entries)
  | saveBatch (name : String) (documents : List Entries)
  | delete (name : String) (id rev : Value)
  | fetch (name : String) (id : Value)
  | fetchView (name : String) (design view options : Value)

namespace Request

def name : Request → String
  | .openDatabase name | .save name _ | .saveBatch name _ | .delete name _ _ | .fetch name _
  | .fetchView name _ _ _ => name

def documents : Request → List Entries
  | .save _ fields => [fields]
  | .saveBatch _ documents => documents
  | _ => []

def perform : Request → StoreM Unit
  | .openDatabase name => Memory.openDatabase name
  | .save name fields => do let _ ← Memory.save name (.map fields)
  | .saveBatch name documents => do
      let _ ← Memory.saveBatch name (.list (documents.map .map))
  | .delete name id rev => do let _ ← Memory.delete name id rev
  | .fetch name id => do let _ ← Memory.fetch name id
  | .fetchView name design view options => do
      let _ ← Memory.fetchView name design view options

def effect (db : Database) (tokens : Tokens) : Request → Effect Unit
  | .openDatabase _ => ⟨.ok (), db, tokens⟩
  | .save _ fields => (db.save tokens (.map fields)).forget
  | .saveBatch _ documents => (db.saveBatch tokens (documents.map .map)).forget
  | .delete _ id rev => (db.delete tokens id rev).forget
  | .fetch _ id => ⟨do let _ ← db.fetch id, db, tokens⟩
  | .fetchView _ design view options => ⟨do let _ ← db.fetchView design view options, db, tokens⟩

def answer (m : Memory) (request : Request) : Outcome Unit := (eval request.perform m).1

def leaves (m : Memory) (request : Request) : Memory := (eval request.perform m).2

/-- No failure is pending, and the database takes one of the documents. -/
def Taken (m : Memory) (request : Request) : Prop :=
  m.pendingFailure = none ∧ ∃ db, m.databases.find? (.str request.name) = some db ∧
    db.Touched m.tokens request.documents

end Request

def served (m : Memory) (requests : List Request) : Memory := requests.foldl Request.leaves m

def answers (m : Memory) : List Request → List (Outcome Unit)
  | [] => []
  | request :: rest => request.answer m :: answers (request.leaves m) rest

section Requests

variable {m : Memory} {db : Database}

theorem Request.eval_pending (request : Request) {fault : Fault}
    (pending : m.pendingFailure = some fault) :
    eval request.perform m = (.error (.fault fault), { m with pendingFailure := none }) := by
  cases request with
  | openDatabase name => exact (Call.openDatabase name).eval_pending pending
  | save name fields => exact eval_bind_error m ((Call.save name _).eval_pending pending)
  | saveBatch name documents =>
      exact eval_bind_error m ((Call.saveBatch name _).eval_pending pending)
  | delete name id rev => exact eval_bind_error m ((Call.delete name id rev).eval_pending pending)
  | fetch name id => exact eval_bind_error m ((Call.fetch name id).eval_pending pending)
  | fetchView name design view options =>
      exact eval_bind_error m ((Call.fetchView name design view options).eval_pending pending)

theorem Request.eval_missing (request : Request) (free : m.pendingFailure = none)
    (missing : m.databases.find? (.str request.name) = none) :
    eval request.perform m = (.error (missingDatabase request.name), m) := by
  cases request with
  | openDatabase name => exact eval_openDatabase_missing free missing
  | save name fields => exact eval_bind_error m (eval_save_missing free missing _)
  | saveBatch name documents => exact eval_bind_error m (eval_saveBatch_missing free missing _)
  | delete name id rev =>
      refine eval_bind_error m ?_
      rw [Memory.delete, eval_bind_ok m (eval_available free)]
      exact eval_bind_error m (eval_database_missing missing)
  | fetch name id => exact eval_bind_error m (eval_fetch_missing free missing id)
  | fetchView name design view options =>
      exact eval_bind_error m (eval_fetchView_missing free missing design view options)

theorem eval_forget {α : Type} {call : StoreM α} {name : String} {effect : Effect α}
    {records : List LogRecord}
    (answered : eval call m = (effect.outcome, { m.keep name effect with
      log := m.log ++ records })) :
    eval (do let _ ← call) m = (effect.forget.outcome, { m.keep name effect.forget with
      log := m.log ++ records }) := by
  rw [eval_then_pure, answered]
  rfl

theorem keep_logged {α : Type} {name : String} (m : Memory) (effect : Effect α) :
    m.keep name effect = { m.keep name effect with log := m.log ++ [] } := by
  rw [List.append_nil]
  rfl

theorem keep_read {α : Type} {name : String} (found : m.databases.find? (.str name) = some db)
    (outcome : Outcome α) : m.keep name ⟨outcome, db, m.tokens⟩ = m :=
  keep_eq_self found rfl rfl

/-- The request answers as its step on the database does, and keeps what the step leaves; it
logs nothing if it fails. -/
theorem Request.eval_found (request : Request) (free : m.pendingFailure = none)
    (calm : m.rival = none) (found : m.databases.find? (.str request.name) = some db) :
    ∃ records, (∀ failure, (request.effect db m.tokens).outcome = .error failure → records = []) ∧
      eval request.perform m = ((request.effect db m.tokens).outcome,
        { m.keep request.name (request.effect db m.tokens) with
          log := m.log ++ records }) := by
  cases request with
  | openDatabase name =>
      refine ⟨[], fun _ _ => rfl, ?_⟩
      rw [← keep_logged, Request.effect, keep_read found]
      exact eval_openDatabase free found
  | save name fields =>
      change m.databases.find? (.str name) = some db at found
      cases saved : (db.save m.tokens (.map fields)).outcome with
      | ok entries =>
          refine ⟨[documentSaved name entries], fun failure failed => ?_, ?_⟩
          · rw [Request.effect, Effect.forget, saved] at failed
            cases failed
          · refine eval_forget ?_
            rw [eval_save_ok free found saved, saved]
            rfl
      | error failure =>
          refine ⟨[], fun _ _ => rfl, eval_forget ?_⟩
          rw [eval_save_error free found saved, saved, ← keep_logged]
          rfl
  | saveBatch name documents =>
      refine ⟨[], fun _ _ => rfl, eval_forget ?_⟩
      rw [← keep_logged]
      exact eval_saveBatch free found _
  | delete name id rev =>
      refine ⟨[], fun _ _ => rfl, eval_forget ?_⟩
      rw [← keep_logged]
      exact eval_delete free found id rev
  | fetch name id =>
      refine ⟨[], fun _ _ => rfl, ?_⟩
      have read : eval (Memory.fetch name id) m = (db.fetch id, m) :=
        eval_fetch free calm found id
      rw [← keep_logged, Request.effect, keep_read found, Request.perform, eval_then_pure, read]
  | fetchView name design view options =>
      refine ⟨[], fun _ _ => rfl, ?_⟩
      have read : eval (Memory.fetchView name design view options) m =
          (db.fetchView design view options, m) := eval_fetchView free found design view options
      rw [← keep_logged, Request.effect, keep_read found, Request.perform, eval_then_pure, read]

/-! ## Requests that fail -/

theorem delete_failed {tokens : Tokens} {id rev : Value} {failure : Failure}
    (failed : (db.delete tokens id rev).outcome = .error failure) :
    (db.delete tokens id rev).database = db := by
  unfold Database.delete at failed ⊢
  split
  · rfl
  · next stored live =>
    split
    · rfl
    · next same =>
      rw [live] at failed
      dsimp only at failed
      rw [if_neg same] at failed
      cases failed

theorem Request.effect_failed {request : Request} {tokens : Tokens} {failure : Failure}
    (failed : (request.effect db tokens).outcome = .error failure) :
    (request.effect db tokens).database = db ↔ ¬ db.Touched tokens request.documents := by
  have untouched : ¬ db.Touched tokens [] := nofun
  cases request with
  | openDatabase name => exact iff_of_true rfl untouched
  | save name fields =>
      rw [← saveBatch_eq_self_iff]
      exact Eq.congr_left (Write.saveBatch_single db tokens fields).symm
  | saveBatch name documents => exact saveBatch_eq_self_iff db tokens documents
  | delete name id rev =>
      exact iff_of_true (delete_failed (Outcome.bind_pure_eq_error failed)) untouched
  | fetch name id => exact iff_of_true rfl untouched
  | fetchView name design view options => exact iff_of_true rfl untouched

theorem Request.effect_ok {request : Request} {tokens : Tokens}
    (storable : ∀ fields ∈ request.documents, Write.Storable fields)
    (touched : db.Touched tokens request.documents) :
    (request.effect db tokens).outcome = .ok () := by
  cases request with
  | openDatabase | delete | fetch | fetchView => cases touched
  | save name fields =>
      obtain ⟨revision, saved⟩ := Write.save_ok_of_touches (storable fields (.head _))
        (touched_single.1 touched)
      rw [Request.effect, Effect.forget, saved]
      rfl
  | saveBatch name documents =>
      have all : ∀ fields ∈ documents, Write.Storable fields := storable
      obtain ⟨items, saved⟩ := Write.saveBatch_ok db tokens all
      rw [Request.effect, Effect.forget, saved]
      rfl

theorem Request.leaves_failed {request : Request} {failure : Failure} (calm : m.rival = none)
    (failed : request.answer m = .error failure) :
    (∃ databases tokens, request.leaves m = { m with
      pendingFailure := none, databases := databases, tokens := tokens }) ∧
    ((request.leaves m).databases = m.databases ↔ ¬ request.Taken m) := by
  rw [Request.leaves]
  rw [Request.answer] at failed
  cases pending : m.pendingFailure with
  | some fault =>
      rw [request.eval_pending pending]
      refine ⟨⟨m.databases, m.tokens, rfl⟩, iff_of_true rfl fun taken => ?_⟩
      cases pending.symm.trans taken.1
  | none =>
      cases found : m.databases.find? (.str request.name) with
      | none =>
          rw [request.eval_missing pending found]
          refine ⟨⟨m.databases, m.tokens, ?_⟩, iff_of_true rfl ?_⟩
          · rw [← pending]
          · rintro ⟨-, db, found', -⟩
            cases found.symm.trans found'
      | some db =>
          obtain ⟨records, silent, answered⟩ := request.eval_found pending calm found
          rw [answered] at failed ⊢
          have unlogged := silent failure failed
          have taken : request.Taken m ↔ db.Touched m.tokens request.documents := by
            constructor
            · rintro ⟨-, db', found', touched⟩
              cases found.symm.trans found'
              exact touched
            · exact fun touched => ⟨pending, db, found, touched⟩
          rw [taken, ← Request.effect_failed failed]
          refine ⟨⟨m.databases.set (.str request.name) (request.effect db m.tokens).database,
            (request.effect db m.tokens).tokens, ?_⟩, Keyed.set_eq_self_iff found⟩
          rw [unlogged, List.append_nil, ← pending]
          rfl

theorem storable_of_named {fields : Entries} (named : Named (.map fields))
    (copyable : (Value.map fields).copyable = true) : Write.Storable fields := by
  refine ⟨copyable, fun tokens => ?_⟩
  by_cases given : (identifierOf fields).truthy = true
  · rw [place_truthy given]
    obtain null | ⟨s, text⟩ := named (identifierOf fields) rfl
    · rw [null]
      rfl
    · rw [text]
      rfl
  · rw [place_drawn given]
    rfl

theorem Request.leaves_free (request : Request) (calm : m.rival = none)
    (free : m.pendingFailure = none) :
    (request.leaves m).pendingFailure = none ∧ (request.leaves m).rival = none := by
  rw [Request.leaves]
  cases found : m.databases.find? (.str request.name) with
  | none =>
      rw [request.eval_missing free found]
      exact ⟨free, calm⟩
  | some db =>
      obtain ⟨records, -, answered⟩ := request.eval_found free calm found
      rw [answered]
      exact ⟨free, calm⟩

theorem served_free (requests : List Request) (calm : m.rival = none)
    (free : m.pendingFailure = none) : (served m requests).pendingFailure = none := by
  induction requests generalizing m with
  | nil => exact free
  | cons request rest ih =>
      obtain ⟨free, calm⟩ := request.leaves_free calm free
      exact ih calm free

theorem served_saves {name : String} {tokens : Tokens} {documents : List Entries}
    {db' : Database} (saves : SavesEach db tokens documents db') (free : m.pendingFailure = none)
    (found : m.databases.find? (.str name) = some db) (supply : m.tokens = tokens) :
    let requests := documents.map (Request.save name)
    (∀ answer ∈ answers m requests, answer = .ok ()) ∧
      (served m requests).databases = m.databases.set (.str name) db' := by
  induction saves generalizing m with
  | done db tokens => exact ⟨nofun, (Keyed.set_eq_self found).symm⟩
  | @save db db' tokens fields documents saved ok rest ih =>
      subst supply
      have filed := eval_save_ok free found ok
      have answered : (Request.save name fields).answer m = .ok () := by
        rw [Request.answer, Request.perform, eval_then_pure, filed]
        rfl
      have left : (Request.save name fields).leaves m =
          { m.keep name (db.save m.tokens (.map fields)) with
            log := m.log ++ [documentSaved name saved] } := by
        rw [Request.leaves, Request.perform, eval_then_pure, filed]
      obtain ⟨others, databases⟩ := ih (m := (Request.save name fields).leaves m)
        (by rw [left]; exact free) (by rw [left]; exact keep_databases m name _) (by rw [left]; rfl)
      refine ⟨List.forall_mem_cons.2 ⟨answered, others⟩, ?_⟩
      refine databases.trans ?_
      rw [left]
      exact Keyed.set_set_text m.databases name _ _

theorem eval_saveBatch_ok {name : String} {documents : List Value} {items : List BatchItem}
    {m' : Memory} (saved : eval (saveBatch name (.list documents)) m = (.ok items, m')) :
    m.pendingFailure = none ∧ ∃ db, m.databases.find? (.str name) = some db ∧
      (db.saveBatch m.tokens documents).outcome = .ok items ∧
      m' = m.keep name (db.saveBatch m.tokens documents) := by
  cases pending : m.pendingFailure with
  | some fault =>
      rw [(Call.saveBatch name _).eval_pending pending] at saved
      cases saved
  | none =>
      cases found : m.databases.find? (.str name) with
      | none =>
          rw [eval_saveBatch_missing pending found] at saved
          cases saved
      | some db =>
          rw [eval_saveBatch pending found] at saved
          obtain ⟨answered, left⟩ := Prod.mk.inj saved
          exact ⟨rfl, db, rfl, answered, left.symm⟩

theorem leaves_saveBatch {name : String} (free : m.pendingFailure = none)
    (found : m.databases.find? (.str name) = some db) (documents : List Entries) :
    (Request.leaves m (.saveBatch name documents)).databases =
      m.databases.set (.str name) (db.saveBatch m.tokens (documents.map .map)).database := by
  rw [Request.leaves, Request.perform, eval_then_pure, eval_saveBatch free found]
  rfl

/-- A request that fails changes nothing but the databases and the supply of tokens, takes the
pending failure away, and leaves the databases as they were exactly if none of its documents
was taken; so it does if all of them can be copied.  A pending failure is raised by the first
request, and the others are answered as if there had been none.  A batch that succeeds leads
to the same databases as saving the documents that it accepts, and each one that it rejects
leaves them as they were. -/
theorem failed_requests_leave_store_iff (calm : m.rival = none) :
    (∀ (request : Request) (failure : Failure), request.answer m = .error failure →
      (∃ databases tokens, request.leaves m = { m with
        pendingFailure := none, databases := databases, tokens := tokens }) ∧
      ((request.leaves m).databases = m.databases ↔ ¬ request.Taken m) ∧
      ((∀ fields ∈ request.documents,
          Named (.map fields) ∧ (Value.map fields).copyable = true) →
        (request.leaves m).databases = m.databases)) ∧
    (∀ fault, m.pendingFailure = some fault → ∀ request rest,
      request.leaves m = { m with pendingFailure := none } ∧
      answers m (request :: rest) =
        .error (.fault fault) :: answers { m with pendingFailure := none } rest) ∧
    (m.pendingFailure = none → ∀ requests, (served m requests).pendingFailure = none) ∧
    (∀ name documents items left,
      eval (saveBatch name (.list (documents.map .map))) m = (.ok items, left) →
      items.length = documents.length ∧
      (∀ i item, items[i]? = some item → item.ok = false →
        (Request.leaves m (.saveBatch name (documents.take (i + 1)))).databases =
          (Request.leaves m (.saveBatch name (documents.take i))).databases) ∧
      ∃ pick supply, StrictMono pick ∧ m.tokens.Picks pick supply ∧
        let alone := { m with tokens := supply }
        let requests := (accepted documents items).map (Request.save name)
        (∀ answer ∈ answers alone requests, answer = .ok ()) ∧
          (served alone requests).databases = left.databases) := by
  refine ⟨fun request failure failed => ?_, fun fault pending request rest => ?_,
    fun free requests => served_free requests calm free,
    fun name documents items left saved => ?_⟩
  · obtain ⟨left, unchanged⟩ := Request.leaves_failed calm failed
    refine ⟨left, unchanged, fun sound => unchanged.2 ?_⟩
    -- Sound documents, once one of them was taken, are all taken, and nothing fails.
    rintro ⟨free, db, found, touched⟩
    obtain ⟨records, -, answered⟩ := request.eval_found free calm found
    have storable : ∀ fields ∈ request.documents, Write.Storable fields :=
      fun fields mem => storable_of_named (sound fields mem).1 (sound fields mem).2
    rw [Request.answer, answered, Request.effect_ok storable touched] at failed
    cases failed
  · have raised := request.eval_pending pending
    have left : request.leaves m = { m with pendingFailure := none } := congrArg Prod.snd raised
    refine ⟨left, ?_⟩
    rw [answers, left, Request.answer, raised]
  · obtain ⟨free, db, found, answered, rfl⟩ := eval_saveBatch_ok saved
    have batch := batch_of_saveBatch answered
    refine ⟨batch.length_eq, fun i item listed refused => ?_, ?_⟩
    · rw [leaves_saveBatch free found, leaves_saveBatch free found,
        batch.refused_at listed refused]
    · obtain ⟨pick, mono, saves⟩ := batch.savesEach
      have picks := Tokens.picks_picked pick m.tokens
      exact ⟨pick, _, mono, picks, served_saves (saves _ picks) free found rfl⟩

end Requests

open Write.Blog

/-- A document that is live is saved without its revision, at first while a failure is
pending. -/
theorem stale_save_leaves_store :
    let stale : Request := .save "posts" [(.str "_id", .str "a")]
    let failing := { store with pendingFailure := some injectedFailure }
    stale.answer store = .error (conflict (.str "a")) ∧
      (stale.leaves store).databases = store.databases ∧
      answers failing [stale, stale] =
        [.error (.fault injectedFailure), .error (conflict (.str "a"))] := by
  intro stale failing
  have failed : stale.answer store = .error (conflict (.str "a")) := rfl
  have named : Named (.map [(.str "_id", .str "a")]) := fun id h =>
    .inr ⟨"a", (Except.ok.inj h).symm⟩
  have sound : ∀ fields ∈ stale.documents,
      Named (.map fields) ∧ (Value.map fields).copyable = true := by
    intro fields mem
    cases List.mem_singleton.1 mem
    exact ⟨named, rfl⟩
  have calm : store.rival = none := rfl
  refine ⟨failed, ((failed_requests_leave_store_iff calm).1 stale _ failed).2.2 sound, ?_⟩
  have first := ((failed_requests_leave_store_iff (m := failing) calm).2.1 _ rfl stale [stale]).2
  exact first

/-- A document that cannot be copied lifts its tombstone, and ends a batch after the document
before it was filed. -/
theorem failed_requests_change_store :
    let fixed (id : String) : Entries := [(.str "_id", .str id), (.str "x", .readOnly [])]
    let m := Request.leaves store (.delete "posts" (.str "a") (.str "1-t"))
    let single : Request := .save "posts" (fixed "a")
    let several : Request := .saveBatch "posts" [[(.str "_id", .str "b")], fixed "c"]
    m.Reachable ∧ m.pendingFailure = none ∧
      (∀ id, Named (.map (fixed id))) ∧ Named (.map [(.str "_id", .str "b")]) ∧
      single.answer m = .error .wrongType ∧ several.answer m = .error .wrongType ∧
      (single.leaves m).databases ≠ m.databases ∧ (several.leaves m).databases ≠ m.databases := by
  intro fixed m single several
  have tombstone : m.databases = [(.str "posts", ⟨[], [(.str "a", ⟨2, "t"⟩)], []⟩)] := rfl
  have lifted : (single.leaves m).databases = [(.str "posts", ⟨[], [], []⟩)] := rfl
  have begun : (several.leaves m).databases = [(.str "posts",
      ⟨[(.str "b", ⟨[(.str "_id", .str "b"), (.str "_rev", .str "1-t")], ⟨1, "t"⟩⟩)],
        [(.str "a", ⟨2, "t"⟩)], []⟩)] := by
    simp only [several, m, fixed]
    rfl
  refine ⟨⟨_, operations ++ [.delete "posts" (.str "a") (.str "1-t")], rfl⟩, rfl,
    fun id id' h => .inr ⟨id, (Except.ok.inj h).symm⟩,
    fun id' h => .inr ⟨"b", (Except.ok.inj h).symm⟩, rfl, rfl, ?_, ?_⟩
  · rw [lifted, tombstone]
    simp
  · rw [begun, tombstone]
    simp

end Memory

end DocMapper
