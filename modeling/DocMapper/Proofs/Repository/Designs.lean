import DocMapper.Proofs.Repository.Session
import DocMapper.Proofs.Schema.DesignDocument
import DocMapper.Proofs.Write.Outcomes

/-!
# Saved designs

The documents of the designs of an entity are saved one after the other, each at the revision
that follows the stored one.  If a view of a design has no source, the designs before it have
been saved, and nothing else has changed.
-/

namespace DocMapper

open Value

namespace Keyed

variable {α : Type} {table : Keyed α} {key : Value} {keeps : Value → Bool}

theorem filter_set {value : α} (dropped : ∀ k : Value, k.sameKey key = true → keeps k = false)
    (self : key.sameKey key = true) :
    (table.set key value).filter (fun e => keeps e.1) = table.filter fun e => keeps e.1 := by
  induction table with
  | nil => simp [set, dropped key self]
  | cons entry rest ih =>
    obtain ⟨k, v⟩ := entry
    rw [set]
    split
    next same => simp [dropped k same]
    next => rw [List.filter_cons, List.filter_cons, ih]

theorem filter_erase (dropped : ∀ k : Value, k.sameKey key = true → keeps k = false) :
    (table.erase key).filter (fun e => keeps e.1) = table.filter fun e => keeps e.1 := by
  rw [erase, List.filter_filter]
  refine List.filter_congr fun e _ => ?_
  cases same : e.1.sameKey key with
  | true => simp [dropped e.1 same]
  | false => simp

end Keyed

namespace Database

def successor (db : Database) (tokens : Tokens) (id : String) (document : Entries) : Stored :=
  entry document id (.after (db.revision? id) tokens.next)

def current? (db : Database) (id : String) (document : Entries) : Entries :=
  match db.documents.find? (.str id) with
  | some stored => document.set (.str revField) (.str stored.revision.text)
  | none => document

variable {db : Database} {tokens : Tokens} {id : String} {document : Entries}

theorem filed_set_rev (identified : document.find? (.str idField) = some (.str id))
    (old : Value) (revision : Revision) :
    filed (document.set (.str revField) old) (.str id) revision =
      filed document (.str id) revision := by
  have kept : (document.set (.str revField) old).find? (.str idField) = some (.str id) := by
    rw [Keyed.find?_set_text, if_neg (by decide), identified]
  rw [filed, filed, Keyed.set_eq_self kept, Keyed.set_eq_self identified, Keyed.set_set_text]

theorem save_current? (identified : document.find? (.str idField) = some (.str id))
    (nonempty : id ≠ "") (unrevised : document.find? (.str revField) = none)
    (copyable : copyableEntries document = true) :
    db.save tokens (.map (db.current? id document)) =
      ⟨.ok (db.successor tokens id document).fields,
        db.put id (db.successor tokens id document), tokens.rest⟩ := by
  have marked : (db.current? id document).find? (.str idField) = some (.str id) := by
    rw [current?]
    split
    · rw [Keyed.find?_set_text, if_neg (by decide), identified]
    · exact identified
  have permitted : db.permit (.str id) (.map (db.current? id document)) =
      .ok (db.revision? id) := by
    refine permit_ok_iff.2 ⟨rfl, _, rfl, ?_⟩
    rw [current?]
    cases db.documents.find? (.str id) with
    | none =>
        simp only [unrevised]
        rfl
    | some stored =>
        simp only [Keyed.find?_set_text, if_pos]
        exact differs_text.2 rfl
  have copies : (Value.map (db.current? id document)).copyable = true := by
    change copyableEntries _ = true
    rw [current?]
    split
    · exact copyable_set copyable rfl rfl
    · exact copyable
  have same : entry (db.current? id document) id = entry document id := by
    funext revision
    rw [entry, entry, current?]
    split
    · rw [filed_set_rev identified]
    · rfl
  have fields : filed (db.current? id document) (.str id) = filed document (.str id) :=
    funext fun revision => congrArg Stored.fields (congrFun same revision)
  rw [save_named db tokens marked nonempty, saveAs, permitted]
  change db.file tokens (.str id) _ _ = _
  rw [file_map, if_pos copies, same, fields]
  rfl

theorem revisionOf_successor :
    revisionOf (db.successor tokens id document).fields =
      .str (db.successor tokens id document).revision.text := revisionOf_filed ..

theorem showsRevisions_put (shows : db.ShowsRevisions) :
    (db.put id (db.successor tokens id document)).ShowsRevisions := by
  rintro ⟨key, stored⟩ mem
  obtain mem | ⟨rfl, -⟩ := Keyed.mem_set mem
  · exact shows _ mem
  · exact (carries_entry document id _).2

end Database

namespace Session

open StoreM Memory

structure Builds (entity : Entity) (maps : Value) (document : Design → Entries)
    (design : Design) : Prop where
  built : ∃ given, sourcesOf maps design.name = .ok given ∧
    designDocument entity given design.name = .ok (document design)
  identified : (document design).find? (.str idField) = some (.str design.id)
  unrevised : (document design).find? (.str revField) = none
  copyable : copyableEntries (document design) = true

theorem id_ne_empty (design : Design) : design.id ≠ "" := by
  intro empty
  have length := congrArg String.length empty
  simp [Design.id, designPrefix] at length

variable {m : Memory} {name : String} {db : Database} {entity : Entity} {maps : Value}
  {design : Design} {document : Design → Entries}

theorem eval_atStoredRevision (free : m.pendingFailure = none) (calm : m.rival = none)
    (found : m.databases.find? (.str name) = some db) (shows : db.ShowsRevisions) {id : String}
    {fields : Entries} (identified : fields.find? (.str idField) = some (.str id)) :
    eval (atStoredRevision name fields) m = (.ok (db.current? id fields), m) := by
  have called : Database.identifierOf fields = .str id := by
    rw [Database.identifierOf, identified]
    rfl
  have fetched := Memory.eval_fetch free calm found (Database.identifierOf fields)
  rw [called, Database.fetch_text] at fetched
  rw [atStoredRevision, StoreM.eval_tryCatch, called, Database.current?]
  cases live : db.documents.find? (.str id) with
  | none =>
      rw [live] at fetched
      rw [StoreM.eval_bind_error m fetched]
      rfl
  | some stored =>
      rw [live] at fetched
      obtain ⟨key, mem, -⟩ := Keyed.mem_of_find? live
      have shown : Database.revisionOf stored.fields = .str stored.revision.text := by
        rw [Database.revisionOf, shows _ mem]
        rfl
      rw [StoreM.eval_bind_ok m fetched, shown]
      rfl

def withDesign (m : Memory) (name : String) (db : Database) (entity : Entity)
    (document : Design → Entries) (design : Design) : Memory :=
  let stored := db.successor m.tokens design.id (document design)
  { m with
    databases := m.databases.set (.str name) (db.put design.id stored)
    tokens := m.tokens.rest
    log := m.log ++ [documentSaved name stored.fields] ++
      [designSaved entity design.name (.str stored.revision.text)] }

theorem eval_saveDesign (free : m.pendingFailure = none) (calm : m.rival = none)
    (found : m.databases.find? (.str name) = some db) (shows : db.ShowsRevisions)
    (builds : Builds entity maps document design) :
    eval (saveDesign name entity maps design.name) m =
      (.ok (.str (db.successor m.tokens design.id (document design)).revision.text),
        withDesign m name db entity document design) := by
  obtain ⟨given, looked, built⟩ := builds.built
  have saved := @Database.save_current? db m.tokens design.id (document design) builds.identified
    (id_ne_empty design) builds.unrevised builds.copyable
  have stores := Memory.eval_save_ok free found (congrArg Effect.outcome saved)
  rw [saveDesign, StoreM.eval_lift_ok m looked, StoreM.eval_lift_ok m built,
    StoreM.eval_bind_ok m (eval_atStoredRevision free calm found shows builds.identified),
    StoreM.eval_bind_ok m stores, saved]
  dsimp only
  rw [Database.revisionOf_successor]
  rfl

theorem eval_saveDesign_failed {failure : Failure} {given : Value}
    (looked : sourcesOf maps design.name = .ok given)
    (failed : designDocument entity given design.name = .error failure) :
    eval (saveDesign name entity maps design.name) m = (.error failure, m) := by
  rw [saveDesign, StoreM.eval_lift_ok m looked, StoreM.eval_lift_error m failed]

/-! ## All designs -/

/-- What becomes of a database, and of the supply of tokens, while the documents of designs are
saved in order; the revisions are told by the names of the designs. -/
inductive Installs (document : Design → Entries) :
    Database → Tokens → List Design → Database → Tokens → Entries → Prop where
  | done (db : Database) (tokens : Tokens) : Installs document db tokens [] db tokens []
  | next {db db' : Database} {tokens tokens' : Tokens} {design : Design} {rest : List Design}
      {revisions : Entries} (stored : Stored)
      (succeeds : stored = db.successor tokens design.id (document design))
      (others : Installs document (db.put design.id stored) tokens.rest rest db' tokens'
        revisions) :
      Installs document db tokens (design :: rest) db' tokens'
        ((design.name, .str stored.revision.text) :: revisions)

theorem eval_installs {designs : List Design} (free : m.pendingFailure = none)
    (calm : m.rival = none) (found : m.databases.find? (.str name) = some db)
    (shows : db.ShowsRevisions) (builds : ∀ design ∈ designs, Builds entity maps document design) :
    ∃ db' tokens revisions log,
      Installs document db m.tokens designs db' tokens revisions ∧
      eval ((designs.map Design.name).mapM fun design => do
        return (design, ← saveDesign name entity maps design)) m =
        (.ok revisions, { m with
          databases := m.databases.set (.str name) db'
          tokens := tokens
          log := log }) := by
  induction designs generalizing m db with
  | nil =>
    refine ⟨db, m.tokens, [], m.log, .done db m.tokens, ?_⟩
    rw [Keyed.set_eq_self found]
    rfl
  | cons design rest ih =>
    obtain ⟨first, others⟩ := List.forall_mem_cons.1 builds
    let stored := db.successor m.tokens design.id (document design)
    have step : eval (do return (design.name, ← saveDesign name entity maps design.name)) m =
        (.ok (design.name, .str stored.revision.text),
          withDesign m name db entity document design) := by
      rw [eval_then_pure, eval_saveDesign free calm found shows first]
      rfl
    have found' : (withDesign m name db entity document design).databases.find? (.str name) =
        some (db.put design.id stored) := by
      simp [withDesign, stored]
    obtain ⟨db', tokens, revisions, log, installs, run⟩ :=
      ih (m := withDesign m name db entity document design) free calm found'
        (Database.showsRevisions_put shows) others
    refine ⟨db', tokens, _, log, .next stored rfl installs, ?_⟩
    rw [List.map_cons, List.mapM_cons, StoreM.eval_bind_ok m step, eval_then_pure, run]
    simp only [withDesign, Keyed.set_set_text]
    rfl

/-- The designs are saved up to the first one whose document cannot be built. -/
theorem eval_installs_until {before : List Design} {rest : List Value} {given : Value}
    {failure : Failure} (free : m.pendingFailure = none) (calm : m.rival = none)
    (found : m.databases.find? (.str name) = some db) (shows : db.ShowsRevisions)
    (builds : ∀ design ∈ before, Builds entity maps document design)
    (looked : sourcesOf maps design.name = .ok given)
    (failed : designDocument entity given design.name = .error failure) :
    ∃ db' tokens revisions log,
      Installs document db m.tokens before db' tokens revisions ∧
      eval ((before.map Design.name ++ design.name :: rest).mapM fun design => do
        return (design, ← saveDesign name entity maps design)) m =
        (.error failure, { m with
          databases := m.databases.set (.str name) db'
          tokens := tokens
          log := log }) := by
  obtain ⟨db', tokens, revisions, log, installs, run⟩ := eval_installs free calm found shows builds
  refine ⟨db', tokens, revisions, log, installs, ?_⟩
  rw [List.mapM_append, StoreM.eval_bind_ok m run, List.mapM_cons]
  refine StoreM.eval_bind_error _ (StoreM.eval_bind_error _ (StoreM.eval_bind_error _ ?_))
  exact eval_saveDesign_failed looked failed

def isOther (designs : List Design) (key : Value) : Bool :=
  !designs.any fun design => key.sameKey (.str design.id)

/-- The documents of the designs are new, at the next generation each, and everything else is
as it was. -/
structure Installed (document : Design → Entries) (designs : List Design) (db db' : Database) :
    Prop where
  stored : ∀ design ∈ designs, ∃ stored, db'.documents.find? (.str design.id) = some stored ∧
    stored.fields = Database.filed (document design) (.str design.id) stored.revision ∧
    stored.revision.generation = db.generation design.id + 1
  lifted : ∀ design ∈ designs, db'.tombstones.find? (.str design.id) = none
  documents : db'.documents.filter (fun e => isOther designs e.1) =
    db.documents.filter fun e => isOther designs e.1
  tombstones : db'.tombstones.filter (fun e => isOther designs e.1) =
    db.tombstones.filter fun e => isOther designs e.1
  views : db'.views = db.views

namespace Installs

variable {db' : Database} {tokens tokens' : Tokens} {designs : List Design} {revisions : Entries}
  (installs : Installs document db tokens designs db' tokens' revisions)

include installs

theorem find?_eq {id : String} (other : id ∉ designs.map Design.id) :
    db'.documents.find? (.str id) = db.documents.find? (.str id) ∧
      db'.tombstones.find? (.str id) = db.tombstones.find? (.str id) := by
  induction installs with
  | done => exact ⟨rfl, rfl⟩
  | next stored _ _ ih =>
    rw [List.map_cons, List.mem_cons, not_or] at other
    obtain ⟨documents, tombstones⟩ := ih other.2
    rw [documents, tombstones]
    simp [Database.put, Database.lift, Keyed.find?_erase, sameKey_str, Ne.symm other.1]

theorem stored (nodup : (designs.map Design.id).Nodup) : ∀ design ∈ designs,
    (∃ stored, db'.documents.find? (.str design.id) = some stored ∧
      stored.fields = Database.filed (document design) (.str design.id) stored.revision ∧
      stored.revision.generation = db.generation design.id + 1) ∧
    db'.tombstones.find? (.str design.id) = none := by
  induction installs with
  | done => exact List.forall_mem_nil _
  | @next db _ _ _ first rest _ stored succeeds others ih =>
    obtain ⟨fresh, apart⟩ := List.nodup_cons.1 nodup
    obtain ⟨documents, tombstones⟩ := others.find?_eq fresh
    refine List.forall_mem_cons.2 ⟨⟨⟨stored, ?_, ?_, ?_⟩, ?_⟩, fun design mem => ?_⟩
    · simp [documents, Database.put]
    · rw [succeeds]
      rfl
    · rw [succeeds]
      rfl
    · simp [tombstones, Database.put, Database.lift, Keyed.find?_erase, sameKey_str]
    · have other : first.id ≠ design.id := fun same =>
        fresh (same ▸ List.mem_map_of_mem mem)
      obtain ⟨⟨stored', found, fields, next⟩, lifted⟩ := ih apart design mem
      refine ⟨⟨stored', found, fields, ?_⟩, lifted⟩
      rw [next, Database.generation, Database.revision?_put, if_neg other, Database.generation]

theorem others_eq {all : List Design} (among : ∀ design ∈ designs, design ∈ all) :
    (db'.documents.filter fun e => isOther all e.1) =
        (db.documents.filter fun e => isOther all e.1) ∧
      (db'.tombstones.filter fun e => isOther all e.1) =
        (db.tombstones.filter fun e => isOther all e.1) ∧
      db'.views = db.views := by
  induction installs with
  | done => exact ⟨rfl, rfl, rfl⟩
  | @next _ _ _ _ design _ _ _ _ _ ih =>
    obtain ⟨mem, among⟩ := List.forall_mem_cons.1 among
    obtain ⟨documents, tombstones, views⟩ := ih among
    have dropped (k : Value) (same : k.sameKey (.str design.id) = true) :
        isOther all k = false := by
      rw [isOther, Bool.not_eq_false', List.any_eq_true]
      exact ⟨design, mem, same⟩
    rw [documents, tombstones, views]
    refine ⟨Keyed.filter_set dropped (sameKey_self rfl), Keyed.filter_erase dropped, rfl⟩

theorem installed (nodup : (designs.map Design.id).Nodup) :
    Installed document designs db db' := by
  obtain ⟨documents, tombstones, views⟩ :=
    installs.others_eq fun design (mem : design ∈ designs) => mem
  exact {
    stored := fun design mem => (installs.stored nodup design mem).1
    lifted := fun design mem => (installs.stored nodup design mem).2
    documents, tombstones, views }

end Installs

section Made

variable {given source description : Value} {fields : List Field} {designs : List Design}
  (declares : Entity.Declares given fields designs)
  (made : Entity.make given source fields designs description = .ok entity)
  {sources : Design → Entries}

/-- The mapping gives each design sources that can be copied, or none. -/
def Supplies (maps : Value) (sources : Design → Entries) (design : Design) : Prop :=
  Lists maps design.name (sources design) ∧ ∀ e ∈ sources design, e.2.copyable = true

theorem copyable_sourceOf {sources : Entries} (copyable : ∀ e ∈ sources, e.2.copyable = true)
    (design : Design) (view : View) : (entity.sourceOf design sources view).copyable = true := by
  have completed : ∀ e ∈ entity.completed design sources, e.2.copyable = true := by
    rw [Entity.completed]
    split
    · rintro ⟨k, v⟩ mem
      obtain mem | ⟨rfl, -⟩ := Keyed.mem_set mem
      · exact copyable _ mem
      · rfl
    · exact copyable
  rw [Entity.sourceOf]
  cases found : (entity.completed design sources).find? view.name with
  | none => rfl
  | some v =>
    obtain ⟨k, mem, -⟩ := Keyed.mem_of_find? found
    exact completed _ mem

include declares made

theorem builds_of_make (mem : design ∈ entity.designs) (supplies : Supplies maps sources design)
    (full : ∀ view ∈ design.views, ¬ entity.Lacks design (sources design) view) :
    Builds entity maps (fun design => entity.designFields (sources design) design) design := by
  have names := Entity.textNames_of_make declares made
  obtain ⟨read, looked, completes⟩ := supplies.1.mapSources_eq (names.2 design mem).1
  refine ⟨⟨read, looked, designDocument_built declares made mem completes full⟩, ?_, ?_, ?_⟩
  · simp [Entity.designFields, Keyed.find?_cons, sameKey_str]
  · simp [Entity.designFields, sameKey_str, idField, revField, Keyed.find?]
  · have views : copyableEntries (design.views.map fun view =>
        (view.name, ofFields [("map", entity.sourceOf design (sources design) view)])) = true := by
      rw [copyableEntries_iff]
      intro e listed
      obtain ⟨view, viewed, rfl⟩ := List.mem_map.1 listed
      obtain ⟨v, called⟩ := isText_iff.1 ((names.2 design mem).2 view viewed)
      have source := @copyable_sourceOf entity _ supplies.2 design view
      simp [called, ofFields, copyable, copyableEntries, source]
    simpa [Entity.designFields, copyableEntries, copyable] using views

end Made

/-! ## A missing source -/

theorem exists_first {α : Type} {p : α → Prop} {xs : List α} (some : ∃ x ∈ xs, p x) :
    ∃ before x after, xs = before ++ x :: after ∧ (∀ y ∈ before, ¬ p y) ∧ p x := by
  classical
  obtain ⟨x, found⟩ := Option.isSome_iff_exists.1
    (List.find?_isSome.2 (by simpa using some) : (xs.find? fun x => decide (p x)).isSome = true)
  obtain ⟨holds, before, after, split, none⟩ := List.find?_eq_some_iff_append.1 found
  exact ⟨before, x, after, split, by simpa using none, by simpa using holds⟩

structure FirstLacking (entity : Entity) (sources : Design → Entries) (before : List Design)
    (design : Design) (view : View) : Prop where
  lacks : entity.Lacks design (sources design) view
  designs : ∃ after, entity.designs = before ++ design :: after
  supplied : ∀ design ∈ before, ∀ view ∈ design.views,
    ¬ entity.Lacks design (sources design) view
  views : ∃ earlier later, design.views = earlier ++ view :: later ∧
    ∀ view ∈ earlier, ¬ entity.Lacks design (sources design) view

theorem exists_firstLacking {sources : Design → Entries}
    (lacking : ∃ design ∈ entity.designs, ∃ view ∈ design.views,
      entity.Lacks design (sources design) view) :
    ∃ before design view, FirstLacking entity sources before design view := by
  obtain ⟨before, design, after, designs, supplied, lacking⟩ := exists_first lacking
  obtain ⟨earlier, view, later, views, given, lacks⟩ := exists_first lacking
  refine ⟨before, design, view, lacks, ⟨after, designs⟩, fun d mem view viewed lacks => ?_,
    earlier, later, views, given⟩
  exact supplied d mem ⟨view, viewed, lacks⟩

/-- If some view has no source, the first one is told, the documents of the designs before its
own have been saved, and everything else is as it was. -/
theorem sync_stops_at_missing_source {s : Session} {ref : EntityRef}
    {given source description : Value} {fields : List Field} {designs : List Design}
    (reachable : s.memory.Reachable) (free : s.memory.pendingFailure = none)
    (calm : s.memory.rival = none) (resolves : s.resolve ref = .ok entity)
    (declares : Entity.Declares given fields designs)
    (made : Entity.make given source fields designs description = .ok entity)
    (found : s.memory.databases.find? (.str (s.settings.databaseName entity.source)) = some db)
    {sources : Design → Entries}
    (supplies : ∀ design ∈ entity.designs, Supplies maps sources design)
    (lacking : ∃ design ∈ entity.designs, ∃ view ∈ design.views,
      entity.Lacks design (sources design) view) :
    ∃ before design view db', FirstLacking entity sources before design view ∧
      let run := SessionM.eval (syncDesigns ref maps) s
      run.1 = .error (entity.missingSource design view) ∧
        run.2.memory.databases =
          s.memory.databases.set (.str (s.settings.databaseName entity.source)) db' ∧
        Installed (fun design => entity.designFields (sources design) design) before db db' := by
  obtain ⟨before, design, view, first⟩ := exists_firstLacking lacking
  obtain ⟨after, split⟩ := first.designs
  obtain ⟨earlier, later, views, full⟩ := first.views
  have among : ∀ d ∈ before ++ design :: after, d ∈ entity.designs := fun d mem => split ▸ mem
  have mem : design ∈ entity.designs := among design (List.mem_append_right _ (.head _))
  have names := Entity.textNames_of_make declares made
  obtain ⟨read, looked, completes⟩ := (supplies design mem).1.mapSources_eq (names.2 design mem).1
  have blocked := designDocument_blocked declares made mem completes views full first.lacks
  have shows := reachable.everywhere Database.stable_showsRevisions _ db found
  -- The loop reaches the design that lacks a source, since the designs before it are saved.
  have builds : ∀ d ∈ before,
      Builds entity maps (fun design => entity.designFields (sources design) design) d :=
    fun d earlier => builds_of_make declares made (among d (List.mem_append_left _ earlier))
      (supplies d (among d (List.mem_append_left _ earlier))) (first.supplied d earlier)
  obtain ⟨db', tokens, revisions, log, installs, run⟩ :=
    eval_installs_until free calm found shows builds looked blocked
  have nodup : (before.map Design.id).Nodup := by
    have all := nodup_ids_of_make declares made
    rw [split, List.map_append] at all
    exact (List.nodup_append.1 all).1
  obtain ⟨opened, opens⟩ := eval_database free found
  have listed : entity.designNames =
      before.map Design.name ++ design.name :: after.map Design.name := by
    rw [Entity.designNames, split, List.map_append, List.map_cons]
  have ends : SessionM.eval (syncDesigns ref maps) s = (.error (entity.missingSource design view),
      { s with
        opened := opened
        memory := { s.memory with
          databases := s.memory.databases.set (.str (s.settings.databaseName entity.source)) db'
          tokens := tokens
          log := log } }) := by
    rw [syncDesigns, eval_bind_ok (by rw [eval_entity, resolves]), eval_bind_ok opens]
    refine eval_bind_error ?_
    rw [eval_onStore, listed, run]
  refine ⟨before, design, view, db', first, ?_⟩
  rw [ends]
  exact ⟨rfl, rfl, installs.installed nodup⟩

namespace Secondary

def byOther : View := ⟨.str "by_other", [.str "string"]⟩

def secondary : Design := ⟨.str "secondary", [byOther]⟩

def post : Entity :=
  ⟨.str "Post", .str "posts", Entity.reservedFields,
    [⟨.str "Post", [Entity.everyDocument]⟩, secondary], .null⟩

def session : Session :=
  .start none .empty .defaults
    ([Memory.Operation.createDatabase "posts"].foldl Memory.Operation.leaves
      (.start ⟨fun _ => "t", 0⟩))

theorem reachable : session.memory.Reachable := ⟨_, _, rfl⟩

theorem made : Entity.make (.str "Post") (.str "posts") [] [⟨.str "Post", []⟩, secondary] .null =
    .ok post := rfl

theorem declares : Entity.Declares (.str "Post") [] [⟨.str "Post", []⟩, secondary] where
  named := rfl
  ofFields := List.forall_mem_nil _
  ofDesigns := by
    simp only [List.forall_mem_cons]
    exact ⟨⟨⟨.str "Post", [], rfl⟩, rfl⟩, ⟨⟨.str "secondary", [byOther], rfl⟩, rfl⟩,
      List.forall_mem_nil _⟩
  ofViews := by
    simp only [secondary, List.forall_mem_cons]
    exact ⟨List.forall_mem_nil _, ⟨⟨⟨.str "by_other", [.str "string"], rfl⟩, rfl⟩,
      List.forall_mem_nil _⟩, List.forall_mem_nil _⟩

theorem lacks : post.Lacks secondary [] byOther :=
  ⟨rfl, fun all => absurd (Value.str.inj all.2.1) (by decide)⟩

end Secondary

open Secondary

theorem sync_stops_at_secondary_design :
    (∃ design ∈ post.designs, ∃ view ∈ design.views, post.Lacks design [] view) ∧
      ∃ before design view db', FirstLacking post (fun _ => []) before design view ∧
        let run := SessionM.eval (syncDesigns (.declared post) .null) session
        run.1 = .error (post.missingSource design view) ∧
          run.2.memory.databases = session.memory.databases.set
            (.str (session.settings.databaseName post.source)) db' ∧
          Installed (fun design => post.designFields [] design) before .empty db' := by
  have lacking : ∃ design ∈ post.designs, ∃ view ∈ design.views, post.Lacks design [] view :=
    ⟨secondary, .tail _ (.head _), byOther, .head _, lacks⟩
  exact ⟨lacking, sync_stops_at_missing_source reachable rfl rfl rfl declares made rfl
    (fun design _ => ⟨.nothing rfl, nofun⟩) lacking⟩

/-- The document of the default design is created although the second design has no source. -/
theorem default_design_created_before_missing_source :
    session.memory.Reachable ∧ session.memory.pendingFailure = none ∧
      (∃ design ∈ post.designs, ∃ view ∈ design.views, post.Lacks design [] view) ∧
      (session.memory.databases.find? (.str "posts")).map Database.documents = some [] ∧
      let run := SessionM.eval (syncDesigns (.declared post) .null) session
      run.1 = .error (.badValue "No map source for view 'secondary/by_other' of Post") ∧
        ((run.2.memory.databases.find? (.str "posts")).map Database.documents).map
          (fun documents => documents.map Prod.fst) = some [.str "_design/Post"] :=
  ⟨reachable, rfl, ⟨secondary, .tail _ (.head _), byOther, .head _, lacks⟩, rfl, rfl, rfl⟩

end Session

end DocMapper
