import DocMapper.Proofs.Write.Inserted

/-!
# A batch and its records one by one

The documents of a batch go through the store one after the other, so that inserting the
batch leaves the store that inserting its records one by one leaves, and answers the same
of each record.  Only the preparation differs: a batch is prepared as a whole before its
first document is saved.
-/

namespace DocMapper.Write

open StoreM Memory Database

namespace InsertResult

def row : InsertResult → Option Entries
  | .inserted _ _ returned => some returned
  | .taken .. => none

def ok (result : InsertResult) : Bool := result.row.isSome

end InsertResult

def insertEach (name : String) (entity : Entity) (records : List Value) (returning : Value) :
    StoreM (List InsertResult) :=
  records.mapM fun record => insert name entity record returning

def Readable (entity : Entity) (returning : Value) (fields : Document) : Prop :=
  ∀ tokens revision, ∃ read,
    returned entity (filed fields (place tokens fields).1 revision) returning = .ok read

section Document

variable {entity : Entity} {returning : Value} {fields : Document}

inductive Matched (entity : Entity) (returning : Value) (fields : Document) :
    Outcome BatchItem → Outcome InsertResult → Prop where
  | inserted (id rev : Value) (read : Entries)
      (reads : returned entity ((fields.set (.str idField) id).set (.str revField) rev)
        returning = .ok read) :
      Matched entity returning fields (.ok (.saved id rev)) (.ok (.inserted id rev read))
  | taken (id reason : Value) :
      Matched entity returning fields (.ok (.rejected id reason)) (.ok (.taken id entity.idIndex))
  | failed (failure : Failure) :
      Matched entity returning fields (.error failure) (.error failure)

theorem saveItem_matched (db : Database) (tokens : Tokens)
    (readable : Readable entity returning fields) :
    Matched entity returning fields (itemOf fields (db.save tokens (.map fields)).outcome)
      (insertAnswer entity fields returning (db.save tokens (.map fields)).outcome) := by
  have files := db.save_files tokens fields
  generalize db.save tokens (.map fields) = effect at files ⊢
  cases files with
  | odd => exact .failed _
  | stale => exact .taken _ _
  | fixed => exact .failed _
  | filed revision next admitted copyable =>
      obtain ⟨read, reads⟩ := readable tokens revision
      rw [answer_inserted, reads, itemOf, identifierOf_filed, revisionOf_filed]
      exact .inserted _ _ read reads

end Document

section Documents

variable {name : String} {entity : Entity} {returning : Value}

theorem keep_keep {α β : Type} (m : Memory) (first : Effect α) (second : Effect β)
    (records : List LogRecord) :
    (logged (m.keep name first) records).keep name second =
      logged (m.keep name second) records := by
  simp only [logged, keep, Keyed.set_set_text]

inductive AllMatched (entity : Entity) (returning : Value) :
    List Document → List BatchItem → List InsertResult → Prop where
  | nil : AllMatched entity returning [] [] []
  | cons {fields item result documents items results}
      (first : Matched entity returning fields (.ok item) (.ok result))
      (rest : AllMatched entity returning documents items results) :
      AllMatched entity returning (fields :: documents) (item :: items) (result :: results)

/-- What a batch answers of its documents, and what inserting them one by one answers. -/
inductive Agrees (entity : Entity) (returning : Value) (documents : List Document) :
    Outcome (List BatchItem) → Outcome (List InsertResult) → Prop where
  | answered {items results} (all : AllMatched entity returning documents items results) :
      Agrees entity returning documents (.ok items) (.ok results)
  | failed (failure : Failure) :
      Agrees entity returning documents (.error failure) (.error failure)

theorem Agrees.cons {fields : Document} {documents : List Document} {item : BatchItem}
    {result : InsertResult} {items : Outcome (List BatchItem)}
    {results : Outcome (List InsertResult)}
    (first : Matched entity returning fields (.ok item) (.ok result))
    (rest : Agrees entity returning documents items results) :
    Agrees entity returning (fields :: documents) (do return item :: (← items))
      (do return result :: (← results)) := by
  cases rest with
  | answered all => exact .answered (.cons first all)
  | failed failure => exact .failed failure

/-- A batch of documents and their insertions one by one leave the same store, up to what
is logged, and agree on every document. -/
theorem saveBatch_agrees {documents : List Document} {m : Memory} {db : Database}
    (free : m.pendingFailure = none) (found : m.databases.find? (.str name) = some db)
    (readable : ∀ fields ∈ documents, Readable entity returning fields) :
    let batch := db.saveBatch m.tokens (documents.map .map)
    let each := eval (documents.mapM fun fields => insertPrepared name entity fields returning) m
    (∃ records, each.2 = logged (m.keep name batch) records) ∧
      Agrees entity returning documents batch.outcome each.1 := by
  induction documents generalizing m db with
  | nil =>
      refine ⟨⟨[], ?_⟩, .answered .nil⟩
      rw [logged_nil, keep_eq_self found rfl rfl]
      rfl
  | cons fields rest ih =>
      have matched := saveItem_matched db m.tokens (readable fields List.mem_cons_self)
      obtain ⟨records, inserted⟩ := eval_insertPrepared_found free found entity fields returning
      generalize saved : db.save m.tokens (.map fields) = effect at matched inserted
      have batch := saveBatch_map saved (rest.map .map)
      generalize itemOf fields effect.outcome = item at matched batch
      generalize insertAnswer entity fields returning effect.outcome = answer at matched inserted
      rw [List.mapM_cons, List.map_cons]
      dsimp only
      rw [batch]
      rcases item with failure | item
      · cases matched
        rw [eval_bind_error m inserted]
        exact ⟨⟨records, rfl⟩, .failed failure⟩
      · rcases answer with failure | result
        · cases matched
        · rw [eval_bind_ok m inserted]
          have others : ∀ fields ∈ rest, Readable entity returning fields :=
            fun fields' mem => readable fields' (List.mem_cons_of_mem fields mem)
          obtain ⟨⟨more, left⟩, agrees⟩ := ih (m := logged (m.keep name effect) records) free
            (keep_databases m name effect) others
          rw [eval_then_pure, left]
          refine ⟨⟨records ++ more, ?_⟩, agrees.cons matched⟩
          rw [keep_keep, logged_logged]
          rfl

end Documents

theorem mem_rejectedItems {items : List BatchItem} {i : Nat} :
    i ∈ (rejectedItems items).map Prod.fst ↔ ∃ item, items[i]? = some item ∧ item.ok = false := by
  simp only [rejectedItems, List.map_map, List.mem_map, List.mem_filter,
    List.mem_zipIdx_iff_getElem?, Bool.not_eq_true']
  constructor
  · rintro ⟨⟨item, j⟩, ⟨found, rejected⟩, rfl⟩
    exact ⟨item, found, rejected⟩
  · rintro ⟨item, found, rejected⟩
    exact ⟨(item, i), ⟨found, rejected⟩, rfl⟩

theorem rejectedItems_increasing (items : List BatchItem) :
    ((rejectedItems items).map Prod.fst).Pairwise (· < ·) := by
  have places : (rejectedItems items).map Prod.fst =
      (items.zipIdx.filter fun i => !i.1.ok).map Prod.snd := by
    rw [rejectedItems, List.map_map]
    rfl
  have part : ((items.zipIdx.filter fun i => !i.1.ok).map Prod.snd).Sublist
      (List.range' 0 items.length) := by
    rw [← List.zipIdx_map_snd]
    exact List.filter_sublist.map Prod.snd
  rw [places]
  exact List.Pairwise.sublist part List.pairwise_lt_range'

theorem length_rejectedItems (items : List BatchItem) :
    (rejectedItems items).length = items.countP fun item => !item.ok := by
  have all := List.countP_map (p := fun item => !BatchItem.ok item) (f := Prod.fst)
    (l := items.zipIdx)
  rw [List.zipIdx_map_fst] at all
  rw [rejectedItems, List.length_map, all, List.countP_eq_length_filter]
  rfl

/-- What a batch answers, told from what inserting its records one by one answers. -/
structure Summarizes (summary : BatchResult) (results : List InsertResult) : Prop where
  rows : summary.rows = some (results.map InsertResult.row)
  failures : ∀ i, i ∈ summary.failures.map Prod.fst ↔
    ∃ result, results[i]? = some result ∧ result.ok = false
  increasing : (summary.failures.map Prod.fst).Pairwise (· < ·)
  count : summary.count = results.countP InsertResult.ok
  total : summary.count + summary.failures.length = results.length

section Summaries

variable {entity : Entity} {returning : Value} {documents : List Document}
  {items : List BatchItem} {results : List InsertResult}

theorem AllMatched.oks (all : AllMatched entity returning documents items results) :
    items.map BatchItem.ok = results.map InsertResult.ok := by
  induction all with
  | nil => rfl
  | cons first rest ih =>
      rw [List.map_cons, List.map_cons, ih]
      cases first <;> rfl

theorem AllMatched.lengths (all : AllMatched entity returning documents items results) :
    results.length = documents.length := by
  induction all with
  | nil => rfl
  | cons first rest ih => rw [List.length_cons, List.length_cons, ih]

theorem AllMatched.batchRows (all : AllMatched entity returning documents items results)
    {names : List Value} (listed : returning.items = .ok names) :
    batchRows entity returning documents items = .ok (some (results.map InsertResult.row)) := by
  have some' : returning.isNull = false := by
    cases returning <;> first | rfl | cases listed
  have rows : (documents.zip items).mapM (fun d => batchRow entity names d.1 d.2) =
      .ok (results.map InsertResult.row) := by
    induction all with
    | nil => rfl
    | cons first rest ih =>
        refine Outcome.mapM_cons_ok.2 ⟨_, _, ?_, ih, rfl⟩
        cases first with
        | taken id reason => rfl
        | inserted id rev read reads =>
            obtain ⟨names', hnames, reads⟩ := Outcome.bind_eq_ok.1 reads
            cases listed.symm.trans hnames
            exact Outcome.bind_eq_ok.2 ⟨read, reads, rfl⟩
  rw [Write.batchRows, some', listed]
  exact Outcome.bind_eq_ok.2 ⟨names, rfl, Outcome.bind_eq_ok.2 ⟨_, rows, rfl⟩⟩

theorem AllMatched.summarizes (all : AllMatched entity returning documents items results) :
    Summarizes ⟨items.length - (rejectedItems items).length,
      some (results.map InsertResult.row), rejectedItems items⟩ results := by
  have oks := all.oks
  have lengths : items.length = results.length := by
    simpa using congrArg List.length oks
  have accepted : items.countP BatchItem.ok = results.countP InsertResult.ok := by
    have counts := congrArg (List.countP id) oks
    rwa [List.countP_map, List.countP_map] at counts
  have rejected := length_rejectedItems items
  have parts := List.length_eq_countP_add_countP BatchItem.ok (l := items)
  simp only [Bool.not_eq_true, Bool.decide_eq_false] at parts
  refine ⟨rfl, fun i => ?_, rejectedItems_increasing items, ?_, ?_⟩
  · have place := congrArg (fun oks => oks[i]?) oks
    simp only [List.getElem?_map] at place
    rw [mem_rejectedItems]
    constructor
    · rintro ⟨item, found, refused⟩
      rw [found, Option.map_some, refused, eq_comm, Option.map_eq_some_iff] at place
      exact place
    · rintro ⟨result, found, refused⟩
      rw [found, Option.map_some, refused, Option.map_eq_some_iff] at place
      exact place
  · dsimp only
    omega
  · dsimp only
    omega

end Summaries

/-! ## Records -/

section Records

variable {name : String} {entity : Entity} {returning : Value} {records : List Value}
  {documents : List Document} {m : Memory}

def Prepared (entity : Entity) (records : List Value) (documents : List Document) : Prop :=
  List.Forall₂ (fun record fields => document entity record = .ok fields) records documents

theorem prepareAll_ok (prepared : Prepared entity records documents) :
    prepareAll entity (.list records) = .ok documents := by
  have all : records.forM (fun record => validate entity record false) = .ok () ∧
      records.mapM (prepare entity) = .ok documents := by
    induction prepared with
    | nil => exact ⟨rfl, rfl⟩
    | cons first rest ih =>
        obtain ⟨u, valid, encodes⟩ := Outcome.bind_eq_ok.1 first
        exact ⟨Outcome.bind_eq_ok.2 ⟨u, valid, ih.1⟩,
          Outcome.mapM_cons_ok.2 ⟨_, _, encodes, ih.2, rfl⟩⟩
  exact Outcome.bind_eq_ok.2 ⟨records, rfl, Outcome.bind_eq_ok.2 ⟨(), all⟩⟩

theorem eval_insertEach (prepared : Prepared entity records documents) :
    eval (insertEach name entity records returning) m =
      eval (documents.mapM fun fields => insertPrepared name entity fields returning) m := by
  induction prepared generalizing m with
  | nil => rfl
  | cons first rest ih =>
      rw [insertEach, List.mapM_cons, List.mapM_cons, eval_bind, eval_bind,
        eval_insert_valid m name first]
      rcases eval (insertPrepared name entity _ returning) m with ⟨failure | result, m'⟩
      · rfl
      · exact (eval_then_pure m' _ _).trans (ih ▸ (eval_then_pure m' _ _).symm)

def batchAnswer (entity : Entity) (documents : List Document) (returning : Value)
    (saving : Outcome (List BatchItem)) : Outcome BatchResult := do
  let items ← saving
  let rows ← batchRows entity returning documents items
  return ⟨items.length - (rejectedItems items).length, rows, rejectedItems items⟩

theorem eval_insertAllPrepared (m : Memory) (name : String) (entity : Entity)
    (documents : List Document) (returning : Value) :
    ∃ records, eval (insertAllPrepared name entity documents returning) m =
      (batchAnswer entity documents returning
          (eval (Memory.saveBatch name (.list (documents.map .map))) m).1,
        logged (eval (Memory.saveBatch name (.list (documents.map .map))) m).2 records) := by
  rw [insertAllPrepared]
  rcases saved : eval (Memory.saveBatch name (.list (documents.map .map))) m with
    ⟨failure | items, m'⟩
  · exact ⟨[], by rw [eval_bind_error m saved, logged_nil]; rfl⟩
  · rw [eval_bind_ok m saved]
    have summarized := fun m =>
      eval_then_pure m (liftM (batchRows entity returning documents items))
        fun rows => (⟨items.length - (rejectedItems items).length, rows, rejectedItems items⟩ :
          BatchResult)
    simp only [eval_lift] at summarized
    dsimp only
    split
    · exact ⟨[partlyRejected entity (rejectedItems items).length documents.length],
        summarized (logged m' _)⟩
    · exact ⟨[], by rw [logged_nil]; exact summarized m'⟩

theorem eval_insertAll {list : Value} (prepared : prepareAll entity list = .ok documents) :
    eval (insertAll name entity list returning) m =
      if documents.isEmpty then
        (.ok ⟨0, if returning.isNull then none else some [], []⟩, m)
      else eval (insertAllPrepared name entity documents returning) m := by
  rw [insertAll, eval_lift_ok m prepared]
  split <;> rfl

theorem exists_prepared
    (h : ∀ record ∈ records, ∃ fields, document entity record = .ok fields ∧
      Readable entity returning fields) :
    ∃ documents, Prepared entity records documents ∧
      ∀ fields ∈ documents, Readable entity returning fields := by
  induction records with
  | nil => exact ⟨[], .nil, nofun⟩
  | cons record rest ih =>
      obtain ⟨fields, prepared, readable⟩ := h record List.mem_cons_self
      obtain ⟨documents, others, readables⟩ := ih fun r mem => h r (List.mem_cons_of_mem record mem)
      refine ⟨fields :: documents, .cons prepared others, ?_⟩
      rw [List.forall_mem_cons]
      exact ⟨readable, readables⟩

theorem insertEach_missing (free : m.pendingFailure = none)
    (missing : m.databases.find? (.str name) = none) (fields : Document) :
    eval ((fields :: documents).mapM fun fields => insertPrepared name entity fields returning) m =
      (.error (missingDatabase name), m) := by
  have saving := eval_saveNew m name fields
  rw [eval_save_missing free missing] at saving
  have first : eval (insertPrepared name entity fields returning) m =
      (.error (missingDatabase name), m) := eval_bind_error m saving
  rw [List.mapM_cons, eval_bind_error m first]

theorem insertAllPrepared_missing (free : m.pendingFailure = none)
    (missing : m.databases.find? (.str name) = none) :
    eval (insertAllPrepared name entity documents returning) m =
      (.error (missingDatabase name), m) :=
  eval_bind_error m (eval_saveBatch_missing free missing _)

/-- If every record can be prepared and what is to be returned can be read, inserting the
records as a batch leaves the databases that inserting them one by one leaves, and fails or
answers as that does. -/
theorem insertAll_agrees_with_insertEach {names : List Value} (free : m.pendingFailure = none)
    (listed : returning.items = .ok names)
    (accepted : ∀ record ∈ records, ∃ fields, document entity record = .ok fields ∧
      Readable entity returning fields) :
    let batch := eval (insertAll name entity (.list records) returning) m
    let each := eval (insertEach name entity records returning) m
    batch.2.databases = each.2.databases ∧ batch.2.tokens = each.2.tokens ∧
      (∀ failure, each.1 = .error failure → batch.1 = .error failure) ∧
      ∀ results, each.1 = .ok results → results.length = records.length ∧
        ∃ summary, batch.1 = .ok summary ∧ Summarizes summary results := by
  obtain ⟨documents, prepared, readable⟩ := exists_prepared accepted
  intro batch each
  have hbatch : batch = _ := eval_insertAll (prepareAll_ok prepared)
  have heach : each = _ := eval_insertEach prepared
  cases documents with
  -- A batch without documents is not handed to the store.
  | nil =>
      have given : returning.isNull = false := by
        cases returning <;> first | rfl | cases listed
      rw [given] at hbatch
      rw [hbatch, heach]
      refine ⟨rfl, rfl, nofun, fun results h => ?_⟩
      cases h
      have none : AllMatched entity returning [] [] [] := .nil
      exact ⟨prepared.length_eq.symm, _, rfl, none.summarizes⟩
  | cons fields documents =>
      rw [hbatch, heach, List.isEmpty_cons, if_neg Bool.false_ne_true]
      cases found : m.databases.find? (.str name) with
      | none =>
          rw [insertAllPrepared_missing free found, insertEach_missing free found]
          refine ⟨rfl, rfl, fun failure h => ?_, nofun⟩
          cases h
          rfl
      | some db =>
          obtain ⟨⟨records', left⟩, agrees⟩ := saveBatch_agrees free found readable
          obtain ⟨others, summarized⟩ :=
            eval_insertAllPrepared m name entity (fields :: documents) returning
          rw [summarized, eval_saveBatch free found, left]
          refine ⟨rfl, rfl, ?_⟩
          generalize (db.saveBatch m.tokens ((fields :: documents).map .map)).outcome = saving
            at agrees ⊢
          generalize (eval _ m).1 = inserted at agrees ⊢
          cases agrees with
          | failed failure =>
              refine ⟨fun failure h => ?_, nofun⟩
              cases h
              rfl
          | answered all =>
              refine ⟨nofun, fun results h => ?_⟩
              cases h
              refine ⟨all.lengths.trans prepared.length_eq.symm, _, ?_, all.summarizes⟩
              exact Outcome.bind_eq_ok.2 ⟨_, rfl, Outcome.bind_eq_ok.2
                ⟨_, all.batchRows listed, rfl⟩⟩

end Records

open Blog

/-- A new post, one whose identifier is taken, and one that is given an identifier. -/
theorem insertAll_three_posts :
    let post (id : Value) (title : String) : Value :=
      .map [(.str "_id", id), (.str "title", .str title)]
    let records := [post (.str "b") "two", post (.str "a") "three", post .null "four"]
    let returning : Value := .list [.str "title"]
    let batch := eval (insertAll "posts" entity (.list records) returning) store
    let each := eval (insertEach "posts" entity records returning) store
    batch.2.databases = each.2.databases ∧
      ∃ summary results, batch.1 = .ok summary ∧ each.1 = .ok results ∧ results.length = 3 ∧
        Summarizes summary results := by
  intro post records returning batch each
  have titled : ∀ id title, (id = .null ∨ ∃ s, id = .str s) → ∃ fields,
      document entity (post id title) = .ok fields ∧ Readable entity returning fields := by
    rintro id title (rfl | ⟨s, rfl⟩)
    · exact ⟨[(.str "title", .str title)], rfl, fun _ _ => ⟨_, rfl⟩⟩
    · exact ⟨[(.str "_id", .str s), (.str "title", .str title)], rfl, fun _ _ => ⟨_, rfl⟩⟩
  have accepted : ∀ record ∈ records, ∃ fields,
      document entity record = .ok fields ∧ Readable entity returning fields := by
    simp only [records, List.forall_mem_cons]
    exact ⟨titled _ _ (.inr ⟨_, rfl⟩), titled _ _ (.inr ⟨_, rfl⟩), titled _ _ (.inl rfl),
      List.forall_mem_nil _⟩
  have answered : each.1 = .ok [.inserted (.str "b") (.str "1-t") [(.str "title", .str "two")],
      .taken (.str "a") "posts_id_index",
      .inserted (.str "t") (.str "1-t") [(.str "title", .str "four")]] := rfl
  obtain ⟨same, -, -, summarized⟩ :=
    @insertAll_agrees_with_insertEach "posts" entity returning records store [.str "title"] rfl
      rfl accepted
  obtain ⟨length, summary, batched, summarizes⟩ := summarized _ answered
  exact ⟨same, summary, _, batched, answered, length, summarizes⟩

/-- The default of a field cannot be copied, and only the second record needs it: the batch
fails before its first document is saved, and the first record is inserted alone. -/
theorem insertAll_prepares_first :
    let tags : Field := { Field.plain "tags" .json with default := .readOnly [] }
    let tagged : Entity := { entity with fields := entity.fields ++ [tags] }
    let records : List Value :=
      [.map [(.str "_id", .str "b"), (.str "tags", .int 1)], .map [(.str "_id", .str "c")]]
    let batch := eval (insertAll "posts" tagged (.list records) (.list [.str "_id"])) store
    let each := eval (insertEach "posts" tagged records (.list [.str "_id"])) store
    store.Reachable ∧ store.pendingFailure = none ∧
      (∀ record ∈ records, validate tagged record false = .ok ()) ∧
      (∀ fields : Document, ∀ id revision, ∃ read,
        returned tagged (filed fields id revision) (.list [.str "_id"]) = .ok read) ∧
      batch.1 = .error .wrongType ∧ each.1 = .error .wrongType ∧
      batch.2.databases = store.databases ∧
      ∃ db written, each.2.databases.find? (.str "posts") = some db ∧
        db.documents.find? (.str "b") = some written := by
  intro tags tagged records batch each
  refine ⟨⟨_, operations, rfl⟩, rfl, ?_, fun fields id revision => ⟨_, rfl⟩, rfl, rfl, rfl,
    ⟨_, _, rfl, rfl⟩⟩
  simp only [records, List.forall_mem_cons]
  exact ⟨rfl, rfl, List.forall_mem_nil _⟩

end DocMapper.Write
