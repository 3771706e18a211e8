import DocMapper.Proofs.Http.Failures
import DocMapper.Proofs.Http.Paths
import DocMapper.Proofs.Store.Batches
import DocMapper.Proofs.Write.Stored

/-!
# Who chooses identifiers

A document without an identifier gets one where it is saved: a remote server chooses it for a
document that is posted, the store in memory draws a token for it.  Both stores are asked alike,
except for an empty identifier, which counts as none in memory and stands in the path of a remote
request.
-/

namespace DocMapper

open Database (place)
open Value (isNull isNull_iff)

def identified (fields : Document) (id rev : Value) : Document :=
  Keyed.set (Keyed.set fields (.str idField) id) (.str revField) rev

namespace Database

/-- Whatever the store holds, it files the document under a token. -/
def Generates (tokens : Tokens) (fields : Document) : Prop :=
  ∀ db : Database, db.save tokens (.map fields) =
    db.saveAs tokens.rest (.str tokens.next) (.map fields)

theorem tokens_saveAs_empty (tokens : Tokens) (id : Value) (fields : Document) :
    (empty.saveAs tokens id (.map fields)).tokens =
      if id.hashable && (revisionOf fields).isNull then tokens.rest else tokens := by
  have files := saveAs_files empty tokens id fields
  have awaited : empty.awaited id = .null := rfl
  cases effect : empty.saveAs tokens id (.map fields) with
  | mk outcome after rest =>
      rw [effect] at files
      cases files with
      | odd unhashable => simp [unhashable]
      | stale hashable refused =>
          rw [awaited, ne_eq, ← isNull_iff] at refused
          simp [refused]
      | fixed admitted => simp [admitted.hashable, admitted.presented, awaited, isNull]
      | filed revision next admitted =>
          simp [admitted.hashable, admitted.presented, awaited, isNull]

theorem generates_iff (tokens : Tokens) (fields : Document) :
    Generates tokens fields ↔ ¬ (identifierOf fields).truthy = true := by
  constructor
  · intro generates given
    have drawn := congrArg (fun effect => effect.tokens.drawn) (generates empty)
    have text : (Value.str tokens.next).hashable = true := rfl
    simp only [save_place, place_truthy given, tokens_saveAs_empty, text] at drawn
    split_ifs at drawn <;> grind [Tokens.rest]
  · intro missing db
    rw [save_place, place_drawn missing]

theorem save_identified {db : Database} {tokens : Tokens} {fields saved : Document}
    (ok : (db.save tokens (.map fields)).outcome = .ok saved) :
    ∃ revision : Revision,
      saved = identified fields (place tokens fields).1 (.str revision.text) := by
  have files := save_files db tokens fields
  cases effect : db.save tokens (.map fields) with
  | mk outcome after rest =>
      rw [effect] at files ok
      cases files with
      | filed revision =>
          cases ok
          exact ⟨revision, rfl⟩
      | _ => cases ok

end Database

/-! ## Remote stores -/

namespace Remote

/-- The document is posted to the database, and the server chooses the identifier. -/
structure LeavesIdentifier (request : Request) (name : String) : Prop where
  posted : request.method = .post
  addressed : Resource.ofPath? request.path = some (.database name)

structure Addresses (request : Request) (name id : String) : Prop where
  put : request.method = .put
  addressed : Resource.ofPath? request.path = some (.document name id)

section Saves

variable {name : String} {fields : Document}

theorem save_map (name : String) (fields : Document) :
    save name (.map fields) = (do
      let request ← saveRequest name (Database.identifierOf fields) (.map fields)
      return ⟨request, fun response => do
        response.check (documentSubject (Database.identifierOf fields))
        savedDocument (.map fields) (← response.json)⟩) := rfl

theorem saveRequest_null (document : Value) :
    saveRequest name .null document = (do
      return ⟨.post, databasePath name, [], some (← requestBody document)⟩) := rfl

theorem saveRequest_text (id : String) (document : Value) :
    saveRequest name (.str id) document = (do
      return ⟨.put, documentPath name id, [], some (← requestBody document)⟩) := rfl

variable {exchange : Exchange Entries}

theorem save_cases (made : save name (.map fields) = .ok exchange) :
    Database.identifierOf fields = .null ∧ LeavesIdentifier exchange.request name ∨
      ∃ id, Database.identifierOf fields = .str id ∧ Addresses exchange.request name id := by
  rw [save_map] at made
  obtain ⟨request, requested, made⟩ := Outcome.bind_eq_ok.1 made
  cases made
  generalize Database.identifierOf fields = id at requested ⊢
  cases id with
  | null =>
      obtain ⟨body, -, requested⟩ := Outcome.bind_eq_ok.1 requested
      cases requested
      exact .inl ⟨rfl, rfl, (Resource.database name).ofPath?_path⟩
  | str id =>
      rw [saveRequest_text] at requested
      obtain ⟨body, -, requested⟩ := Outcome.bind_eq_ok.1 requested
      cases requested
      exact .inr ⟨id, rfl, rfl, (Resource.document name id).ofPath?_path⟩
  | _ => cases requested

theorem leaves_iff (made : save name (.map fields) = .ok exchange) :
    LeavesIdentifier exchange.request name ↔ Database.identifierOf fields = .null := by
  rcases save_cases made with ⟨null, leaves⟩ | ⟨id, text, addresses⟩
  · exact iff_of_true leaves null
  · refine iff_of_false (fun leaves => ?_) (by simp [text])
    cases leaves.posted.symm.trans addresses.put

theorem choices_agree_iff (made : save name (.map fields) = .ok exchange) (tokens : Tokens) :
    (LeavesIdentifier exchange.request name ↔ Database.Generates tokens fields) ↔
      Database.identifierOf fields ≠ .str "" := by
  rw [leaves_iff made, Database.generates_iff]
  rcases save_cases made with ⟨null, -⟩ | ⟨id, text, -⟩
  · simp [null, Value.truthy]
  · simp [text, Value.truthy]

theorem exists_save_iff : (∃ exchange, save name (.map fields) = .ok exchange) ↔
    (Database.identifierOf fields = .null ∨ ∃ id, Database.identifierOf fields = .str id) ∧
      ∃ body, requestBody (.map fields) = .ok body := by
  rw [save_map, Outcome.exists_bind_pure]
  generalize Database.identifierOf fields = id
  cases id with
  | null =>
      rw [saveRequest_null, Outcome.exists_bind_pure]
      simp
  | str id =>
      rw [saveRequest_text, Outcome.exists_bind_pure]
      simp
  | _ =>
      refine iff_of_false ?_ (by simp)
      rintro ⟨request, requested⟩
      cases requested

theorem savedDocument_map {body : Value} {saved : Entries} :
    savedDocument (.map fields) body = .ok saved ↔ ∃ id rev, body.part "id" = .ok id ∧
      body.part "rev" = .ok rev ∧ saved = identified fields id rev := by
  have read : savedDocument (.map fields) body = (do
      let id ← body.part "id"
      let rev ← body.part "rev"
      return identified fields id rev) := rfl
  rw [read, Outcome.bind_eq_ok]
  refine exists_congr fun id => ?_
  rw [Outcome.bind_eq_ok, ← exists_and_left]
  refine exists_congr fun rev => and_congr_right fun _ => and_congr_right fun _ => ?_
  exact ⟨fun same => (Except.ok.inj same).symm, fun same => congrArg Except.ok same.symm⟩

theorem read_save (made : save name (.map fields) = .ok exchange) (response : Response)
    (saved : Entries) : exchange.read response = .ok saved ↔
      response.status < 400 ∧ ∃ body id rev, response.json = .ok body ∧
        body.part "id" = .ok id ∧ body.part "rev" = .ok rev ∧ saved = identified fields id rev := by
  rw [save_map] at made
  obtain ⟨request, -, made⟩ := Outcome.bind_eq_ok.1 made
  cases made
  by_cases passed : response.status < 400
  · rw [and_iff_right passed]
    have check := response.check_passed passed (documentSubject (Database.identifierOf fields))
    simp only [check, Outcome.bind_eq_ok, savedDocument_map, true_and, exists_const,
      exists_and_left]
  · obtain ⟨fault, -, check⟩ := response.check_failed (Nat.le_of_not_lt passed)
      (documentSubject (Database.identifierOf fields))
    refine iff_of_false ?_ fun both => passed both.1
    simp only [check]
    nofun

end Saves

end Remote

namespace Write

theorem eq_null_of_encodeValue {v : Value} (null : encodeValue v = .null) : v = .null := by
  cases v <;> first | rfl | cases null

theorem withDefault_not_null {fields fields' : Document} {field : Field}
    (filled : withDefault fields field = .ok fields') {s : String}
    (kept : fields.find? (.str s) ≠ some .null) : fields'.find? (.str s) ≠ some .null := by
  obtain ⟨-, rfl⟩ | ⟨given, -, -, rfl⟩ := withDefault_ok filled
  · exact kept
  · rw [Keyed.find?_set]
    split
    · intro null
      have unset := eq_null_of_encodeValue (Option.some.inj null)
      rw [unset] at given
      cases given
    · exact kept

theorem prepare_not_null {entity : Entity} {record : Value} {fields : Document}
    (prepared : prepare entity record = .ok fields) :
    fields.find? (.str idField) ≠ some .null := by
  obtain ⟨encoded, -, prepared⟩ := Outcome.bind_eq_ok.1 prepared
  have start : (withoutUnset (withoutUnset encoded idField) revField).find? (.str idField) ≠
      some .null := by
    rw [find?_withoutUnset, find?_withoutUnset]
    cases encoded.find? (.str idField) with
    | none => simp
    | some v => cases v <;> simp [Option.filter, Value.isNull, idField, revField]
  exact Outcome.foldlM_keeps (motive := fun fields => fields.find? (.str idField) ≠ some .null)
    prepared start fun _ _ _ _ filled => withDefault_not_null filled

end Write

namespace Remote

/-- **Identifiers.**  A document is left to the server exactly if the store in memory draws a token
for it, unless its identifier is empty.  Any other document is put under its own identifier, which
the store in memory uses as well, and both stores answer with the given document in which
identifier and revision are replaced. -/
theorem save_decides_alike (name : String) (fields : Document) :
    ((∃ exchange, save name (.map fields) = .ok exchange) ↔
      (Database.identifierOf fields = .null ∨ ∃ id, Database.identifierOf fields = .str id) ∧
        ∃ body, requestBody (.map fields) = .ok body) ∧
    ∀ exchange, save name (.map fields) = .ok exchange →
      (∀ tokens, (LeavesIdentifier exchange.request name ↔ Database.Generates tokens fields) ↔
        Database.identifierOf fields ≠ .str "") ∧
      (¬ LeavesIdentifier exchange.request name → ∃ id, Database.identifierOf fields = .str id ∧
        Addresses exchange.request name id ∧
        (id ≠ "" → ∀ (db : Database) (tokens : Tokens),
          db.save tokens (.map fields) = db.saveAs tokens (.str id) (.map fields))) ∧
      (∀ entity record, Write.prepare entity record = .ok fields →
        (LeavesIdentifier exchange.request name ↔ fields.find? (.str idField) = none)) ∧
      (∀ response saved, exchange.read response = .ok saved ↔
        response.status < 400 ∧ ∃ body id rev, response.json = .ok body ∧
          body.part "id" = .ok id ∧ body.part "rev" = .ok rev ∧
          saved = identified fields id rev) ∧
      ∀ (db : Database) (tokens : Tokens) (saved : Document),
        (db.save tokens (.map fields)).outcome = .ok saved →
        ∃ revision : Revision,
          saved = identified fields (place tokens fields).1 (.str revision.text) := by
  refine ⟨exists_save_iff, fun exchange made => ⟨choices_agree_iff made, fun keeps => ?_,
    fun entity record prepared => ?_, read_save made, fun db tokens saved ok => ?_⟩⟩
  · rcases save_cases made with ⟨-, leaves⟩ | ⟨id, text, addresses⟩
    · exact absurd leaves keeps
    · refine ⟨id, text, addresses, fun given db tokens => ?_⟩
      have truthy : (Database.identifierOf fields).truthy = true := by simpa [text, Value.truthy]
      rw [Database.save_place, Database.place_truthy truthy, text]
  · have given := Write.prepare_not_null prepared
    rw [leaves_iff made, Database.identifierOf]
    cases found : fields.find? (.str idField) with
    | none => simp [Value.ofOption]
    | some id =>
        rw [found] at given
        simpa [Value.ofOption] using given
  · exact Database.save_identified ok

namespace Titled

def post (id : String) : Document := [(.str idField, .str id), (.str "title", .str "x")]

def record : Value := .map [(.str idField, .null), (.str "title", .str "x")]

def prepared : Document := [(.str "title", .str "x"), (.str "visits", .int 0)]

theorem prepare_record : Write.prepare Write.Blog.counted record = .ok prepared := rfl

end Titled

open Titled in
theorem save_decides_alike_titled :
    (∃ exchange, save "posts" (.map (post "a")) = .ok exchange ∧
      Addresses exchange.request "posts" "a" ∧
      ∀ tokens, ¬ Database.Generates tokens (post "a")) ∧
    ∃ exchange, save "posts" (.map prepared) = .ok exchange ∧
      LeavesIdentifier exchange.request "posts" ∧
      ∀ tokens, Database.Generates tokens prepared := by
  constructor
  · obtain ⟨made, each⟩ := save_decides_alike "posts" (post "a")
    obtain ⟨exchange, requested⟩ := made.2 ⟨.inr ⟨"a", rfl⟩, _, rfl⟩
    obtain ⟨agree, addressed, -⟩ := each exchange requested
    have keeps : ¬ LeavesIdentifier exchange.request "posts" := fun leaves =>
      nomatch (leaves_iff requested).1 leaves
    obtain ⟨id, text, addresses, -⟩ := addressed keeps
    cases text
    have given : Database.identifierOf (post "a") ≠ .str "" := fun same =>
      absurd (Value.str.inj same) (by decide)
    exact ⟨exchange, requested, addresses, fun tokens generates =>
      keeps (((agree tokens).2 given).2 generates)⟩
  · obtain ⟨made, each⟩ := save_decides_alike "posts" prepared
    obtain ⟨exchange, requested⟩ := made.2 ⟨.inl rfl, _, rfl⟩
    obtain ⟨agree, -, engine, -⟩ := each exchange requested
    have leaves := (engine _ _ prepare_record).2 rfl
    exact ⟨exchange, requested, leaves, fun tokens => ((agree tokens).2 nofun).1 leaves⟩

open Titled in
/-- A post under an empty identifier is put below the path of its database, whereas the store in
memory draws a token for it. -/
theorem empty_identifier_decides_otherwise :
    ∃ exchange, save "posts" (.map (post "")) = .ok exchange ∧
      exchange.request.method = .put ∧ exchange.request.path = "/posts/" ∧
      Database.Generates .numbered (post "") ∧
      ¬ (LeavesIdentifier exchange.request "posts" ↔ Database.Generates .numbered (post "")) := by
  have generates := (Database.generates_iff .numbered (post "")).2 (by decide)
  refine ⟨_, rfl, rfl, by decide +kernel, generates, fun alike => ?_⟩
  cases (alike.2 generates).posted

end Remote

end DocMapper
