import DocMapper.Proofs.Store.Memory

/-!
# Reachable stores

Whatever operations a store has run, with whatever arguments and whether or not they
failed, its databases have every property that the steps on a database keep.  No database
files two documents under one identifier, and each document is filed under its own.
-/

namespace DocMapper

namespace Database

/-- A property of databases that saves and deletions keep. -/
structure Lasting (P : Database → Prop) : Prop where
  saveAs : ∀ {db : Database} (tokens : Tokens) (id document : Value), P db →
    P (db.saveAs tokens id document).database
  delete : ∀ {db : Database} (tokens : Tokens) (id rev : Value), P db →
    P (db.delete tokens id rev).database

structure Stable (P : Database → Prop) : Prop extends Lasting P where
  empty : P .empty
  define : ∀ {db : Database} (views : Keyed ViewMap), P db → P { db with views := views }

namespace Lasting

variable {P : Database → Prop} {db : Database}

theorem save (lasting : Lasting P) (h : P db) (tokens : Tokens) (document : Value) :
    P (db.save tokens document).database := by
  unfold Database.save
  split
  · split
    · exact lasting.saveAs _ _ _ h
    · exact lasting.saveAs _ _ _ h
  · exact h

theorem saveItem (lasting : Lasting P) (h : P db) (tokens : Tokens) (document : Value) :
    P (db.saveItem tokens document).database := by
  have saved := lasting.save h tokens document
  unfold Database.saveItem
  split
  all_goals
    next heq =>
      rw [heq] at saved
      exact saved

theorem saveBatch (lasting : Lasting P) (h : P db) (tokens : Tokens) (documents : List Value) :
    P (db.saveBatch tokens documents).database := by
  induction documents generalizing db tokens with
  | nil => exact h
  | cons document rest ih =>
      have item := lasting.saveItem h tokens document
      unfold Database.saveBatch
      split
      next heq =>
        rw [heq] at item
        exact item
      next heq =>
        rw [heq] at item
        have others := ih item
        split
        all_goals
          next heq' =>
            have same := congrArg Effect.database heq'
            exact same ▸ others _

end Lasting

theorem stable_distinct : Stable fun db => db.documents.Distinct where
  empty := List.Pairwise.nil
  define _ h := h
  saveAs {db} tokens id document h := by
    unfold Database.saveAs
    split
    · simp only [file]
      split
      · exact h.set _ _
      · exact h
    · exact h
  delete {db} tokens id rev h := by
    unfold Database.delete
    split
    · exact h
    · split
      · exact h
      · exact h.erase _

theorem hashable_of_permit {db : Database} {id document : Value} {previous : Option Revision}
    (h : db.permit id document = .ok previous) : id.hashable = true := by
  obtain ⟨u, required, -⟩ := Outcome.bind_eq_ok.1 h
  rw [Value.requireHashable] at required
  split at required
  next hashable => exact hashable
  · cases required

theorem stable_stored {P : Value → Stored → Prop}
    (enters : ∀ (key id : Value) (fields : Entries) (revision : Revision),
      key = id ∨ key.sameKey id = true → id.hashable = true →
      (Value.map fields).copyable = true → P key ⟨filed fields id revision, revision⟩) :
    Stable fun db => ∀ d ∈ db.documents, P d.1 d.2 where
  empty := nofun
  define _ h := h
  saveAs {db} tokens id document h := by
    unfold Database.saveAs
    split
    next permitted =>
      have hashable := hashable_of_permit permitted
      simp only [file]
      split
      next fields copyable =>
        rintro ⟨k, stored⟩ mem
        obtain mem | ⟨rfl, rfl | ⟨same, -⟩⟩ := Keyed.mem_set mem
        · exact h _ mem
        · exact enters k k fields _ (.inl rfl) hashable copyable
        · exact enters k id fields _ (.inr same) hashable copyable
      · exact h
    · exact h
  delete {db} tokens id rev h := by
    unfold Database.delete
    split
    · exact h
    · split
      · exact h
      · exact fun d mem => h d (List.mem_of_mem_filter mem)

def SelfNamed (db : Database) : Prop :=
  ∀ d ∈ db.documents, ∃ id, d.2.fields.find? (.str idField) = some id ∧
    (d.1 = id ∨ d.1.sameKey id = true)

theorem find?_filed (fields : Entries) (id : Value) (revision : Revision) :
    (filed fields id revision).find? (.str idField) = some id := by
  simp [filed, idField, revField]

theorem stable_selfNamed : Stable SelfNamed :=
  stable_stored (P := fun key stored => ∃ id, stored.fields.find? (.str idField) = some id ∧
      (key = id ∨ key.sameKey id = true))
    fun _ id fields revision named _ _ => ⟨id, find?_filed fields id revision, named⟩

end Database

namespace Memory

open StoreM

inductive Operation where
  | createDatabase (name : String)
  | deleteDatabase (name : String)
  | openDatabase (name : String)
  | defineView (name : String) (design view : Value) (map : ViewMap)
  | save (name : String) (document : Value)
  | saveBatch (name : String) (documents : Value)
  | delete (name : String) (id rev : Value)
  | fetch (name : String) (id : Value)
  | fetchView (name : String) (design view options : Value)
  | count (name : String)
  | inject (fault : Fault)
  | arm (rival : Rival)
  | report (record : LogRecord)
  | close

def Operation.leaves (m : Memory) : Operation → Memory
  | .createDatabase name => (eval (Memory.createDatabase name) m).2
  | .deleteDatabase name => (eval (Memory.deleteDatabase name) m).2
  | .openDatabase name => (eval (Memory.openDatabase name) m).2
  | .defineView name design view map => (eval (Memory.defineView name design view map) m).2
  | .save name document => (eval (Memory.save name document) m).2
  | .saveBatch name documents => (eval (Memory.saveBatch name documents) m).2
  | .delete name id rev => (eval (Memory.delete name id rev) m).2
  | .fetch name id => (eval (Memory.fetch name id) m).2
  | .fetchView name design view options => (eval (Memory.fetchView name design view options) m).2
  | .count name => (eval (Memory.count name) m).2
  | .inject fault => (eval (Memory.inject fault) m).2
  | .arm rival => (eval (Memory.arm rival) m).2
  | .report record => (eval (Memory.report record) m).2
  | .close => (eval Memory.close m).2

def Reachable (m : Memory) : Prop :=
  ∃ (tokens : Tokens) (operations : List Operation),
    m = operations.foldl Operation.leaves (.start tokens)

def Distinct (m : Memory) : Prop :=
  ∀ (name : String) (db : Database),
    m.databases.find? (.str name) = some db → db.documents.Distinct

def Everywhere (P : Database → Prop) (m : Memory) : Prop :=
  ∀ (name : String) (db : Database), m.databases.find? (.str name) = some db → P db

end Memory

/-! ## Actions that keep a property -/

def StoreM.Keeps {α : Type} (P : Memory → Prop) (action : StoreM α) : Prop :=
  ∀ m : Memory, P m → P (eval action m).2

namespace StoreM

section Keeps

variable {α β : Type} {P : Memory → Prop} {action : StoreM α} {next : α → StoreM β}

theorem keeps_pure (a : α) : Keeps P (pure a : StoreM α) := fun _ h => h

theorem keeps_throw (failure : Failure) : Keeps P (throw failure : StoreM α) := fun _ h => h

theorem keeps_lift (outcome : Outcome α) : Keeps P (liftM outcome : StoreM α) := by
  intro m h
  rw [eval_lift]
  exact h

theorem Keeps.bind (h : Keeps P action) (hnext : ∀ a, Keeps P (next a)) :
    Keeps P (action >>= next) := by
  intro m holds
  have step := h m holds
  rcases heval : eval action m with ⟨failure | a, m'⟩ <;> rw [heval] at step
  · rw [eval_bind_error m heval]
    exact step
  · rw [eval_bind_ok m heval]
    exact hnext a m' step

theorem Keeps.catch {handler : Failure → StoreM α} (h : Keeps P action)
    (hhandler : ∀ failure, Keeps P (handler failure)) : Keeps P (tryCatch action handler) := by
  intro m holds
  have step := h m holds
  rw [eval_tryCatch]
  rcases heval : eval action m with ⟨failure | a, m'⟩ <;> rw [heval] at step
  · exact hhandler failure m' step
  · exact step

theorem keeps_get {next : Memory → StoreM β} (h : ∀ m, Keeps P (next m)) :
    Keeps P (get >>= next) := by
  intro m holds
  rw [eval_get]
  exact h m m holds

end Keeps

end StoreM

namespace Memory

open StoreM

theorem keeps_database (Q : Memory → Prop) (name : String) : Keeps Q (database name) := by
  refine keeps_get fun m => ?_
  split
  · exact keeps_pure _
  · exact keeps_throw _

structure Carries (P : Database → Prop) (Q : Memory → Prop) (name : String) : Prop where
  report : ∀ record, Keeps Q (report record)
  available : Keeps Q available
  onDatabase : ∀ {α : Type} (step : Database → Tokens → Effect α),
    (∀ db tokens, P db → P (step db tokens).database) → Keeps Q (onDatabase name step)

namespace Carries

variable {P : Database → Prop} {Q : Memory → Prop} {name : String} (carries : Carries P Q name)

include carries

theorem openDatabase : Keeps Q (openDatabase name) :=
  carries.available.bind fun _ => (keeps_database Q name).bind fun _ => keeps_pure ()

variable (lasting : Database.Lasting P)

include lasting

theorem save (document : Value) : Keeps Q (save name document) := by
  refine carries.available.bind fun _ => ?_
  refine (carries.onDatabase _ fun db tokens h => ?_).bind fun _ => ?_
  · exact lasting.save h tokens document
  · exact (carries.report _).bind fun _ => keeps_pure _

theorem delete (id rev : Value) : Keeps Q (delete name id rev) := by
  refine carries.available.bind fun _ => ?_
  exact carries.onDatabase _ fun db tokens h => lasting.delete tokens id rev h

theorem saveBatch (documents : Value) : Keeps Q (saveBatch name documents) := by
  refine carries.available.bind fun _ => ?_
  refine (keeps_database Q name).bind fun _ => ?_
  refine (keeps_lift _).bind fun documents => ?_
  exact carries.onDatabase _ fun db tokens h => lasting.saveBatch h tokens documents

end Carries

theorem keeps_fetch_calm {Q : Memory → Prop}
    (calm : ∀ m, Q m → m.pendingFailure = none ∧ m.rival = none) (name : String) (id : Value) :
    Keeps Q (fetch name id) := by
  intro m holds
  obtain ⟨free, calm⟩ := calm m holds
  cases found : m.databases.find? (.str name) with
  | none =>
      rw [fetch, eval_bind_ok m (eval_available free),
        eval_bind_error m (eval_database_missing found)]
      exact holds
  | some db =>
      rw [eval_fetch free calm found]
      exact holds

section Everywhere

variable {P : Database → Prop}

theorem carries_everywhere (name : String) : Carries P (Everywhere P) name where
  report _ _ h := h
  available := by
    refine keeps_get fun m => ?_
    split
    · exact Keeps.bind (fun _ h => h) fun _ => keeps_throw _
    · exact keeps_pure ()
  onDatabase {α} step h m everywhere := by
    cases found : m.databases.find? (.str name) with
    | none =>
        rw [onDatabase, eval_bind_error m (eval_database_missing found)]
        exact everywhere
    | some db =>
        rw [eval_onDatabase found]
        intro other db' found'
        rw [keep, Keyed.find?_set_text] at found'
        split at found'
        · cases found'
          exact h db m.tokens (everywhere name db found)
        · exact everywhere other db' found'

theorem keeps_deleteDatabase (name : String) : Keeps (Everywhere P) (deleteDatabase name) := by
  intro m h other db found
  rw [deleteDatabase, eval_modify, Keyed.find?_erase] at found
  split at found
  · cases found
  · exact h other db found

variable (stable : Database.Stable P)

include stable

theorem keeps_createDatabase (name : String) : Keeps (Everywhere P) (createDatabase name) := by
  intro m h
  rw [createDatabase, eval_modify]
  split
  · exact h
  · intro other db found
    rw [Keyed.find?_set_text] at found
    split at found
    · cases found
      exact stable.empty
    · exact h other db found

theorem keeps_act (name : String) (id : Value) (current : Entries) (rival : Rival) :
    Keeps (Everywhere P) (Rival.act name id current rival) := by
  have lasting := stable.toLasting
  cases rival with
  | saves changes =>
      refine (keeps_lift _).bind fun _ => ?_
      exact ((carries_everywhere name).save lasting _).bind fun _ => keeps_pure ()
  | deletes =>
      exact ((carries_everywhere name).delete lasting id _).bind fun _ => keeps_pure ()

theorem keeps_fetch (name : String) (id : Value) : Keeps (Everywhere P) (fetch name id) := by
  refine (carries_everywhere name).available.bind fun _ => ?_
  refine (keeps_database _ name).bind fun _ => ?_
  refine (keeps_lift _).bind fun current => ?_
  refine keeps_get fun m => ?_
  split
  · refine Keeps.bind (fun _ h => h) fun _ => ?_
    exact (keeps_act stable name id current _).bind fun _ => keeps_pure _
  · exact keeps_pure _

theorem everywhere_leaves {m : Memory} (h : m.Everywhere P) (operation : Operation) :
    (operation.leaves m).Everywhere P := by
  have lasting := stable.toLasting
  cases operation with
  | createDatabase name => exact keeps_createDatabase stable name m h
  | deleteDatabase name => exact keeps_deleteDatabase name m h
  | openDatabase name => exact (carries_everywhere name).openDatabase m h
  | defineView name design view map =>
      refine (carries_everywhere name).onDatabase _ (fun db _ h => ?_) m h
      exact stable.define (db.views.set (.tuple [design, view]) map) h
  | save name document => exact (carries_everywhere name).save lasting document m h
  | saveBatch name documents => exact (carries_everywhere name).saveBatch lasting documents m h
  | delete name id rev => exact (carries_everywhere name).delete lasting id rev m h
  | fetch name id => exact keeps_fetch stable name id m h
  | fetchView name design view options =>
      refine Keeps.bind (carries_everywhere name).available (fun _ => ?_) m h
      exact (keeps_database _ name).bind fun _ => keeps_lift _
  | count name => exact (keeps_database _ name).bind (fun _ => keeps_lift _) m h
  | inject fault => exact h
  | arm rival => exact h
  | report record => exact h
  | close => exact nofun

end Everywhere

section Ready

variable {P : Database → Prop}

end Ready

namespace Reachable

variable {m : Memory}

theorem everywhere {P : Database → Prop} (stable : Database.Stable P) (h : m.Reachable) :
    m.Everywhere P := by
  obtain ⟨tokens, operations, rfl⟩ := h
  have run : ∀ m : Memory, m.Everywhere P → (operations.foldl Operation.leaves m).Everywhere P := by
    induction operations with
    | nil => exact fun m h => h
    | cons operation rest ih => exact fun m h => ih _ (everywhere_leaves stable h operation)
  exact run _ nofun

theorem distinct (h : m.Reachable) : m.Distinct := h.everywhere Database.stable_distinct

theorem selfNamed (h : m.Reachable) : m.Everywhere Database.SelfNamed :=
  h.everywhere Database.stable_selfNamed

theorem leaves (h : m.Reachable) (operation : Operation) : (operation.leaves m).Reachable := by
  obtain ⟨tokens, operations, rfl⟩ := h
  exact ⟨tokens, operations ++ [operation], List.foldl_concat .. |>.symm⟩

end Reachable

end Memory

end DocMapper
