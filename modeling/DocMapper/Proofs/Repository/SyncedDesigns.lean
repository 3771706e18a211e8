import DocMapper.Proofs.Repository.Designs

/-!
# Synchronized designs

If every view of an entity has a source, its designs can be saved whatever is stored of them.
Each design document then holds the given sources and nothing older, and no view and no count
of documents shows a difference.  Saving the designs once more moves their revisions by one
generation and changes nothing else.
-/

namespace DocMapper

open Value

namespace Keyed

variable {α : Type} {table : Keyed α} {key : Value} {value : α}

theorem map_fst_set (there : table.has key = true) :
    (table.set key value).map Prod.fst = table.map Prod.fst := by
  rw [has_iff] at there
  induction table with
  | nil => simp at there
  | cons entry rest ih =>
    obtain ⟨k, v⟩ := entry
    rw [set]
    split
    next => rfl
    next other =>
      obtain ⟨e, mem, same⟩ := there
      rcases List.mem_cons.1 mem with rfl | mem
      · exact absurd same other
      · rw [List.map_cons, List.map_cons, ih ⟨e, mem, same⟩]

/-- What is written under a key that is not kept is not seen among the kept entries, and a key
that stops the filter stops it as before. -/
theorem filterM_set {keeps : Value → Outcome Bool} (dropped : keeps key = .ok false)
    (alike : ∀ k : Value, k.sameKey key = true → keeps k ≠ .ok true) :
    (table.set key value).filterM (fun e => keeps e.1) = table.filterM fun e => keeps e.1 := by
  have run : ∀ kept, (table.set key value).filterAuxM (fun e => keeps e.1) kept =
      table.filterAuxM (fun e => keeps e.1) kept := by
    induction table with
    | nil =>
      intro kept
      simp only [set, List.filterAuxM, dropped]
      rfl
    | cons entry rest ih =>
      obtain ⟨k, v⟩ := entry
      intro kept
      rw [set]
      split
      next same =>
        rw [List.filterAuxM, List.filterAuxM]
        cases keep : keeps k with
        | error failure => rfl
        | ok keep' =>
          cases keep' with
          | false => rfl
          | true => exact absurd keep (alike k same)
      next =>
        rw [List.filterAuxM, List.filterAuxM]
        exact bind_congr fun keep => ih _
  rw [List.filterM, List.filterM, run]

end Keyed

namespace Database

/-- Counts and views tell the same of both databases. -/
structure ReadsAlike (db db' : Database) : Prop where
  count : db'.count = db.count
  rows : ∀ view, db'.rows view = db.rows view
  fetchView : ∀ design view options,
    db'.fetchView design view options = db.fetchView design view options

variable {db db' db'' : Database}

theorem ReadsAlike.refl (db : Database) : ReadsAlike db db :=
  ⟨rfl, fun _ => rfl, fun _ _ _ => rfl⟩

theorem ReadsAlike.trans (first : ReadsAlike db db') (second : ReadsAlike db' db'') :
    ReadsAlike db db'' where
  count := second.count.trans first.count
  rows view := (second.rows view).trans (first.rows view)
  fetchView design view options :=
    (second.fetchView design view options).trans (first.fetchView design view options)

theorem isDesignId_id (design : Design) : isDesignId (.str design.id) = .ok true := by
  simp [isDesignId, Design.id, String.toList_append]

theorem isDesignId_of_sameKey {key : Value} {design : Design}
    (same : key.sameKey (.str design.id) = true) : isDesignId key ≠ .ok false := by
  rw [sameKey_text] at same
  cases key with
  | str s =>
    obtain rfl : s = design.id := by simpa [referent] using same
    simp [isDesignId_id]
  | viewRef name => nofun
  | _ => cases same

def seen (key : Value) : Outcome Bool := do return !(← isDesignId key)

theorem seen_id (design : Design) : seen (.str design.id) = .ok false := by
  rw [seen, isDesignId_id]
  rfl

theorem seen_of_sameKey {key : Value} {design : Design}
    (same : key.sameKey (.str design.id) = true) : seen key ≠ .ok true := by
  have other := isDesignId_of_sameKey same
  rw [seen]
  cases told : isDesignId key with
  | error failure => nofun
  | ok isDesign =>
    cases isDesign with
    | false => exact absurd told other
    | true => nofun

theorem count_seen (db : Database) : db.count = (do
    return (← db.documents.filterM fun d => seen d.1).length) := rfl

theorem emittedRows_seen (db : Database) (view : ViewMap) : db.emittedRows view = (do
    let documents ← db.documents.filterM fun d => seen d.1
    return documents.filterMap fun d => view.row? d.1 d.2.fields) := rfl

theorem readsAlike_put (db : Database) (design : Design) (stored : Stored) :
    ReadsAlike db (db.put design.id stored) := by
  have visible : (db.put design.id stored).documents.filterM (fun d => seen d.1) =
      db.documents.filterM fun d => seen d.1 :=
    Keyed.filterM_set (seen_id design) fun _ => seen_of_sameKey
  have rows : ∀ view, (db.put design.id stored).rows view = db.rows view := by
    intro view
    rw [Database.rows, Database.rows, emittedRows_seen, emittedRows_seen, visible]
  refine ⟨?_, rows, fun d v options => ?_⟩
  · rw [count_seen, count_seen, visible]
  · rw [fetchView, fetchView]
    simp only [rows]
    rfl

end Database

namespace Session

namespace Installs

variable {document : Design → Entries} {db db' : Database} {tokens tokens' : Tokens}
  {designs : List Design} {revisions : Entries}
  (installs : Installs document db tokens designs db' tokens' revisions)

include installs

theorem names_eq : revisions.map Prod.fst = designs.map Design.name := by
  induction installs with
  | done => rfl
  | next _ _ _ ih => rw [List.map_cons, List.map_cons, ih]

theorem readsAlike : Database.ReadsAlike db db' := by
  induction installs with
  | done => exact .refl _
  | @next db _ _ _ design _ _ stored _ _ ih =>
    exact (Database.readsAlike_put db design stored).trans ih

theorem showsRevisions (shows : db.ShowsRevisions) : db'.ShowsRevisions := by
  induction installs with
  | done => exact shows
  | next _ succeeds _ ih =>
    subst succeeds
    exact ih (Database.showsRevisions_put shows)

theorem answered (nodup : (designs.map Design.id).Nodup) : ∀ e ∈ revisions,
    ∃ design ∈ designs, ∃ stored, e = (design.name, .str stored.revision.text) ∧
      db'.documents.find? (.str design.id) = some stored := by
  induction installs with
  | done => exact List.forall_mem_nil _
  | @next db _ _ _ design rest _ stored _ others ih =>
    obtain ⟨fresh, apart⟩ := List.nodup_cons.1 nodup
    refine List.forall_mem_cons.2 ⟨⟨design, .head _, stored, rfl, ?_⟩, fun e mem => ?_⟩
    · rw [(others.find?_eq fresh).1]
      simp [Database.put]
    · obtain ⟨design', listed, found⟩ := ih apart e mem
      exact ⟨design', .tail _ listed, found⟩

theorem places_eq (live : ∀ design ∈ designs, db.documents.has (.str design.id) = true)
    (unburied : ∀ design ∈ designs, db.tombstones.find? (.str design.id) = none) :
    db'.documents.map Prod.fst = db.documents.map Prod.fst ∧ db'.tombstones = db.tombstones := by
  induction installs with
  | done => exact ⟨rfl, rfl⟩
  | @next db _ _ _ design rest _ stored _ _ ih =>
    obtain ⟨here, live⟩ := List.forall_mem_cons.1 live
    obtain ⟨free, unburied⟩ := List.forall_mem_cons.1 unburied
    have tombstones : (db.put design.id stored).tombstones = db.tombstones :=
      Keyed.erase_eq_self (by simp [Keyed.has, free])
    have documents : (db.put design.id stored).documents.map Prod.fst =
        db.documents.map Prod.fst := Keyed.map_fst_set here
    have live' : ∀ other ∈ rest,
        (db.put design.id stored).documents.has (.str other.id) = true := by
      intro other mem
      have there := live other mem
      rw [Keyed.has] at there ⊢
      rw [Database.put, Keyed.find?_set_text]
      split
      · rfl
      · exact there
    obtain ⟨keys, same⟩ := ih live' (tombstones ▸ unburied)
    exact ⟨keys.trans documents, same.trans tombstones⟩

end Installs

/-- The source of a view: the given one, or for the view of all documents in the default design
the usual one if none is given. -/
inductive HasSource (entity : Entity) (design : Design) (sources : Entries) (view : View) :
    Value → Prop where
  | given {source : Value} (found : sources.find? view.name = some source) :
      HasSource entity design sources view source
  | usual (default : design.name = entity.name) (all : view.name = .str allView)
      (absent : sources.find? (.str allView) = none) :
      HasSource entity design sources view (.str defaultAllMap)

theorem hasSource_sourceOf {entity : Entity} {design : Design} {sources : Entries} {view : View}
    (names : entity.TextNames) (declared : design ∈ entity.designs) (viewed : view ∈ design.views)
    (full : ¬ entity.Lacks design sources view) :
    HasSource entity design sources view (entity.sourceOf design sources view) := by
  rcases sourceOf_cases names declared viewed with
    ⟨⟨default, all, absent⟩, source⟩ | ⟨other, source⟩
  · rw [source]
    exact .usual default all absent
  · rw [source]
    cases found : sources.find? view.name with
    | none => exact absurd ⟨congrArg ofOption found, other⟩ full
    | some source => exact .given found

/-! ## Designs of an entity -/

def Documents (entity : Entity) (design : Design) (sources : Entries) (stored : Stored) : Prop :=
  ∃ views : Entries,
    stored.fields = [(.str idField, .str design.id), (.str "language", .str "javascript"),
      (.str "views", .map views), (.str revField, .str stored.revision.text)] ∧
    List.Forall₂ (fun view e => e.1 = view.name ∧
      ∃ source, HasSource entity design sources view source ∧ e.2 = ofFields [("map", source)])
      design.views views

/-- The documents of the designs are those of the given sources, at the answered revisions, and
nothing else is different or looks different. -/
structure Synced (entity : Entity) (sources : Design → Entries) (db db' : Database)
    (revisions : Entries) : Prop where
  names : revisions.map Prod.fst = entity.designNames
  stored : ∀ design ∈ entity.designs, ∃ stored,
    db'.documents.find? (.str design.id) = some stored ∧
      Documents entity design (sources design) stored ∧
      revisions.find? design.name = some (.str stored.revision.text) ∧
      stored.revision.generation = db.generation design.id + 1
  documents : db'.documents.filter (fun e => isOther entity.designs e.1) =
    db.documents.filter fun e => isOther entity.designs e.1
  tombstones : db'.tombstones.filter (fun e => isOther entity.designs e.1) =
    db.tombstones.filter fun e => isOther entity.designs e.1
  views : db'.views = db.views
  reads : Database.ReadsAlike db db'

/-- Nothing but the revisions of the design documents differs, and these by one generation. -/
structure Renewed (designs : List Design) (db db' : Database) : Prop where
  keys : db'.documents.map Prod.fst = db.documents.map Prod.fst
  others : db'.documents.filter (fun e => isOther designs e.1) =
    db.documents.filter fun e => isOther designs e.1
  revised : ∀ design ∈ designs, ∃ stored stored',
    db.documents.find? (.str design.id) = some stored ∧
      db'.documents.find? (.str design.id) = some stored' ∧
      stored'.fields = stored.fields.set (.str revField) (.str stored'.revision.text) ∧
      stored'.revision.generation = stored.revision.generation + 1
  tombstones : db'.tombstones = db.tombstones
  views : db'.views = db.views

def withDatabase (s : Session) (entity : Entity) (db : Database) (opened : List String)
    (tokens : Tokens) (log : List LogRecord) : Session :=
  { s with
    opened := opened
    memory := { s.memory with
      databases := s.memory.databases.set (.str (s.settings.databaseName entity.source)) db
      tokens := tokens
      log := log } }

section Made

variable {entity : Entity} {given source description maps : Value} {fields : List Field}
  {designs : List Design} (declares : Entity.Declares given fields designs)
  (made : Entity.make given source fields designs description = .ok entity)
  {sources : Design → Entries} {db db' : Database} {tokens tokens' : Tokens} {revisions : Entries}

def builtFrom (entity : Entity) (sources : Design → Entries) (design : Design) : Entries :=
  entity.designFields (sources design) design

theorem documents_of_filed {design : Design} {stored : Stored} (names : entity.TextNames)
    (declared : design ∈ entity.designs)
    (full : ∀ view ∈ design.views, ¬ entity.Lacks design (sources design) view)
    (filed : stored.fields = Database.filed (builtFrom entity sources design) (.str design.id)
      stored.revision) : Documents entity design (sources design) stored := by
  refine ⟨design.views.map fun view =>
    (view.name, ofFields [("map", entity.sourceOf design (sources design) view)]), ?_, ?_⟩
  · rw [filed]
    simp [Database.filed, builtFrom, Entity.designFields, Keyed.set, sameKey_str, idField, revField]
  · rw [List.forall₂_map_right_iff, List.forall₂_same]
    intro view viewed
    exact ⟨rfl, _, hasSource_sourceOf names declared viewed (full view viewed), rfl⟩

include declares made

theorem answers_distinct (installs :
      Installs (builtFrom entity sources) db tokens entity.designs db' tokens' revisions) :
    revisions.Distinct := by
  have designNames := Entity.designNames_of_make declares made
  rw [Entity.designNames, ← installs.names_eq] at designNames
  exact List.pairwise_map.1 designNames.apart

theorem synced_of_installs
    (installs : Installs (builtFrom entity sources) db tokens entity.designs db' tokens' revisions)
    (full : ∀ design ∈ entity.designs, ∀ view ∈ design.views,
      ¬ entity.Lacks design (sources design) view) :
    Synced entity sources db db' revisions := by
  have names := Entity.textNames_of_make declares made
  have nodup := nodup_ids_of_make declares made
  have apart := answers_distinct declares made installs
  have installed := installs.installed nodup
  refine ⟨installs.names_eq, fun design declared => ?_, installed.documents, installed.tombstones,
    installed.views, installs.readsAlike⟩
  obtain ⟨stored, found, filed, next⟩ := installed.stored design declared
  refine ⟨stored, found, documents_of_filed names declared (full design declared) filed, ?_, next⟩
  have listed : design.name ∈ revisions.map Prod.fst :=
    installs.names_eq ▸ List.mem_map_of_mem declared
  obtain ⟨e, mem, called⟩ := List.mem_map.1 listed
  obtain ⟨other, declared', stored', rfl, found'⟩ := installs.answered nodup e mem
  obtain rfl : other = design :=
    List.inj_on_of_nodup_map (Entity.designNames_of_make declares made).nodup declared' declared
      called
  obtain rfl : stored' = stored := Option.some.inj (found'.symm.trans found)
  obtain ⟨d, text⟩ := isText_iff.1 (names.2 other declared).1
  exact apart.find?_self (by rw [text]; exact sameKey_self rfl) mem

theorem renewed_of_installs {tokens'' : Tokens} {db'' : Database} {revisions' : Entries}
    (installs : Installs (builtFrom entity sources) db tokens entity.designs db' tokens' revisions)
    (again : Installs (builtFrom entity sources) db' tokens' entity.designs db'' tokens''
      revisions') : Renewed entity.designs db' db'' := by
  have nodup := nodup_ids_of_make declares made
  have first := installs.installed nodup
  have second := again.installed nodup
  have live : ∀ design ∈ entity.designs, db'.documents.has (.str design.id) = true := by
    intro design declared
    obtain ⟨stored, found, -⟩ := first.stored design declared
    rw [Keyed.has, found]
    rfl
  obtain ⟨keys, tombstones⟩ := again.places_eq live first.lifted
  refine ⟨keys, second.documents, fun design declared => ?_, tombstones, second.views⟩
  obtain ⟨stored, found, filed, -⟩ := first.stored design declared
  obtain ⟨stored', found', filed', next⟩ := second.stored design declared
  refine ⟨stored, stored', found, found', ?_, ?_⟩
  · rw [filed', filed, Database.filed, Database.filed, Keyed.set_set_text]
  · rw [next, Database.generation_live found]

theorem eval_syncDesigns {s : Session} {ref : EntityRef} (free : s.memory.pendingFailure = none)
    (calm : s.memory.rival = none) (resolves : s.resolve ref = .ok entity)
    (found : s.memory.databases.find? (.str (s.settings.databaseName entity.source)) = some db)
    (shows : db.ShowsRevisions)
    (supplies : ∀ design ∈ entity.designs, Supplies maps sources design)
    (full : ∀ design ∈ entity.designs, ∀ view ∈ design.views,
      ¬ entity.Lacks design (sources design) view) :
    ∃ db' tokens revisions opened log,
      Installs (builtFrom entity sources) db s.memory.tokens entity.designs db' tokens revisions ∧
      SessionM.eval (syncDesigns ref maps) s =
        (.ok revisions, s.withDatabase entity db' opened tokens log) := by
  obtain ⟨db', tokens, revisions, log, installs, run⟩ := eval_installs free calm found shows
    fun design declared => builds_of_make declares made declared (supplies design declared)
      (full design declared)
  obtain ⟨opened, opens⟩ := eval_database free found
  refine ⟨db', tokens, revisions, opened, log, installs, ?_⟩
  have distinct := answers_distinct declares made installs
  have saves : SessionM.eval (onStore (entity.designNames.mapM fun design => do
        return (design, ← saveDesign (s.settings.databaseName entity.source) entity maps design)))
      { s with opened := opened } =
        (.ok revisions, s.withDatabase entity db' opened tokens log) := by
    rw [eval_onStore, Entity.designNames, run]
    rfl
  rw [syncDesigns, eval_bind_ok (by rw [eval_entity, resolves]), eval_bind_ok opens,
    eval_bind_ok saves, distinct.ofPairs]
  rfl

end Made

/-- If every view has a source, the designs of an entity are saved whatever is stored of them:
their documents hold these sources, and nothing else is or looks different.  A second time only
the revisions of these documents move, by one generation. -/
theorem sync_installs_designs {s : Session} {ref : EntityRef} {entity : Entity}
    {given source description maps : Value} {fields : List Field} {designs : List Design}
    {db : Database} (reachable : s.memory.Reachable) (free : s.memory.pendingFailure = none)
    (calm : s.memory.rival = none) (resolves : s.resolve ref = .ok entity)
    (declares : Entity.Declares given fields designs)
    (made : Entity.make given source fields designs description = .ok entity)
    (found : s.memory.databases.find? (.str (s.settings.databaseName entity.source)) = some db)
    {sources : Design → Entries}
    (supplies : ∀ design ∈ entity.designs, Supplies maps sources design)
    (full : ∀ design ∈ entity.designs, ∀ view ∈ design.views,
      ¬ entity.Lacks design (sources design) view) :
    let name : Value := .str (s.settings.databaseName entity.source)
    let run := SessionM.eval (syncDesigns ref maps) s
    let again := SessionM.eval (syncDesigns ref maps) run.2
    ∃ revisions db' revisions' db'',
      run.1 = .ok revisions ∧ run.2.memory.databases = s.memory.databases.set name db' ∧
        Synced entity sources db db' revisions ∧
      again.1 = .ok revisions' ∧
        again.2.memory.databases = run.2.memory.databases.set name db'' ∧
        Synced entity sources db' db'' revisions' ∧ Renewed entity.designs db' db'' := by
  intro name run again
  have shows := reachable.everywhere Database.stable_showsRevisions _ db found
  obtain ⟨db', tokens, revisions, opened, log, installs, first⟩ :=
    eval_syncDesigns declares made free calm resolves found shows supplies full
  -- The second run starts where the first one ends, with another database but the same entity.
  let s' := s.withDatabase entity db' opened tokens log
  have found' : s'.memory.databases.find? (.str (s'.settings.databaseName entity.source)) =
      some db' := (Keyed.find?_set_text _ _ _ _).trans (if_pos rfl)
  obtain ⟨db'', tokens', revisions', opened', log', installs', second⟩ :=
    eval_syncDesigns (s := s') declares made free calm resolves found'
      (installs.showsRevisions shows) supplies full
  have ran : run = (.ok revisions, s') := first
  have ranAgain : again = (.ok revisions', s'.withDatabase entity db'' opened' tokens' log') :=
    (congrArg (fun r => SessionM.eval (syncDesigns ref maps) r.2) ran).trans second
  refine ⟨revisions, db', revisions', db'', ?_⟩
  rw [ranAgain, ran]
  exact ⟨rfl, rfl, synced_of_installs declares made installs full, rfl, rfl,
    synced_of_installs declares made installs' full,
    renewed_of_installs declares made installs installs'⟩

namespace Secondary

def otherMap : Value := .str "function(doc) { emit(doc.other, null) }"

def otherSources (design : Design) : Entries :=
  match design.name with
  | .str "secondary" => [(.str "by_other", otherMap)]
  | _ => []

def maps : Value := .map [(.str "secondary", .map [(.str "by_other", otherMap)])]

def used : List Memory.Operation :=
  [.createDatabase "posts", .defineView "posts" (.str "Post") (.str "all") .byIdentifier,
    .save "posts" (.map [(.str "_id", .str "a")]),
    .save "posts" (.map [(.str "_id", .str "_design/Post"), (.str "old", .bool true)]),
    .save "posts" (.map [(.str "_id", .str "_design/secondary")]),
    .delete "posts" (.str "_design/secondary") (.str "1-t")]

def usedSession : Session :=
  .start none .empty .defaults (used.foldl Memory.Operation.leaves (.start ⟨fun _ => "t", 0⟩))

def usedPosts : Database :=
  ⟨[(.str "a", ⟨[(.str "_id", .str "a"), (.str "_rev", .str "1-t")], ⟨1, "t"⟩⟩),
      (.str "_design/Post", ⟨[(.str "_id", .str "_design/Post"), (.str "old", .bool true),
        (.str "_rev", .str "1-t")], ⟨1, "t"⟩⟩)],
    [(.str "_design/secondary", ⟨2, "t"⟩)],
    [(.tuple [.str "Post", .str "all"], .byIdentifier)]⟩

theorem reachable_used : usedSession.memory.Reachable := ⟨_, used, rfl⟩

theorem idle_used :
    usedSession.memory.pendingFailure = none ∧ usedSession.memory.rival = none := ⟨rfl, rfl⟩

theorem found_used : usedSession.memory.databases.find?
    (.str (usedSession.settings.databaseName post.source)) = some usedPosts := rfl

theorem supplies : ∀ design ∈ post.designs, Supplies maps otherSources design := by
  simp only [post, List.forall_mem_cons]
  refine ⟨⟨.unlisted rfl rfl, List.forall_mem_nil _⟩, ⟨.listed rfl rfl rfl, ?_⟩,
    List.forall_mem_nil _⟩
  exact List.forall_mem_singleton.2 rfl

theorem full : ∀ design ∈ post.designs, ∀ view ∈ design.views,
    ¬ post.Lacks design (otherSources design) view := by
  simp only [post, secondary, List.forall_mem_cons]
  refine ⟨⟨fun lacks => lacks.2 ⟨rfl, rfl, rfl⟩, List.forall_mem_nil _⟩,
    ⟨fun lacks => ?_, List.forall_mem_nil _⟩, List.forall_mem_nil _⟩
  exact nomatch lacks.1

end Secondary

open Secondary in
/-- An older document is replaced and a deleted one created again; both are renewed by a second
run. -/
theorem sync_replaces_older_designs :
    let run := SessionM.eval (syncDesigns (.declared post) maps) usedSession
    let again := SessionM.eval (syncDesigns (.declared post) maps) run.2
    usedSession.memory.Reachable ∧
      usedSession.memory.databases.find? (.str "posts") = some usedPosts ∧
      ∃ revisions db' revisions' db'', run.1 = .ok revisions ∧ again.1 = .ok revisions' ∧
        Synced post otherSources usedPosts db' revisions ∧
        usedPosts.generation "_design/Post" = 1 ∧ usedPosts.generation "_design/secondary" = 2 ∧
        Renewed post.designs db' db'' := by
  intro run again
  have resolves : usedSession.resolve (.declared post) = .ok post := rfl
  obtain ⟨revisions, db', revisions', db'', ran, -, synced, ranAgain, -, -, renewed⟩ :=
    sync_installs_designs reachable_used idle_used.1 idle_used.2 resolves declares made found_used
      supplies full
  exact ⟨reachable_used, found_used, revisions, db', revisions', db'', ran, ranAgain, synced,
    rfl, rfl, renewed⟩

end Session

end DocMapper
