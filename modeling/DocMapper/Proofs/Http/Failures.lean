import DocMapper.Http.Operations
import DocMapper.Proofs.Outcome
import DocMapper.Proofs.Value.ReadBack
import Mathlib.Data.List.Induction

/-!
# Answers that tell of a failure

Statuses from 400 on end every operation with a fault of the store, whatever the
body holds.  Any other answer is read as that of a request that succeeded, and
never becomes a fault.
-/

namespace DocMapper

theorem Keyed.find?_ofPairs_texts {α : Type} (pairs : List (String × α)) (name : String) :
    (Keyed.ofPairs (pairs.map fun p => (Value.str p.1, p.2))).find? (.str name) =
      pairs.reverse.lookup name := by
  induction pairs using List.reverseRecOn with
  | nil => rfl
  | append_singleton pairs pair ih =>
    have step : Keyed.ofPairs ((pairs ++ [pair]).map fun p => (Value.str p.1, p.2)) =
        (Keyed.ofPairs (pairs.map fun p => (Value.str p.1, p.2))).set (.str pair.1) pair.2 := by
      simp [ofPairs]
    rw [step, find?_set_text, ih, List.reverse_concat', List.lookup_cons]
    grind

namespace Response

def tree? (response : Response) : Option Json :=
  Json.read? (String.ofList (Text.withoutByteOrderMark response.body.toList))

def member (members : List (String × Json)) (name : String) : Value :=
  .ofOption ((members.map fun m => (m.1, m.2.toValue)).reverse.lookup name)

/-- Error and reason that a body gives. -/
inductive Explains (response : Response) : Value → Value → Prop
  | nothing (empty : response.body = "") : response.Explains .null .null
  | object {members : List (String × Json)} (given : response.tree? = some (.object members)) :
      response.Explains (member members "error") (member members "reason")
  | other (given : response.body ≠ "")
      (unnamed : ∀ members, response.tree? ≠ some (.object members)) :
      response.Explains .null (.str response.body)

theorem find?_toEntries (members : List (String × Json)) (name : String) :
    .ofOption ((Keyed.ofPairs (Json.toEntries members)).find? (.str name)) =
      member members name := by
  rw [member, ← Keyed.find?_ofPairs_texts, List.map_map, Json.toEntries_eq]
  rfl

theorem json_eq (response : Response) :
    response.json = match response.tree? with
      | some tree => .ok tree.toValue
      | none => .error (.misuse .malformedText) := rfl

theorem explains_explanation (response : Response) :
    response.Explains response.explanation.1 response.explanation.2 := by
  rw [explanation]
  split
  next empty => exact .nothing (String.isEmpty_iff.mp empty)
  next given =>
    have given : response.body ≠ "" := fun empty => given (String.isEmpty_iff.mpr empty)
    rw [json_eq]
    cases read : response.tree? with
    | none => exact .other given (by simp [read])
    | some tree =>
      cases tree with
      | object members =>
        simp only [Json.toValue, find?_toEntries]
        exact .object read
      | _ => exact .other given (by simp [read])

/-- The fault that tells of the failure of what is asked for. -/
inductive Told (response : Response) (subject : String) : Fault → Prop
  | conflict {error reason : Value} (status : response.status = 409)
      (explained : response.Explains error reason) :
      response.Told subject (.conflict (.str ("Conflict on " ++ subject)) reason)
  | notFound {error reason : Value} (status : response.status = 404)
      (explained : response.Explains error reason) :
      response.Told subject (.notFound (.str ("Not found: " ++ subject)) reason)
  | other {error reason : Value} (conflict : response.status ≠ 409)
      (notFound : response.status ≠ 404) (explained : response.Explains error reason) :
      response.Told subject
        (.store (.str (failureMessage response.status subject error reason))
          (.int response.status) error reason (.str "STORE_ERROR"))

theorem check_failed {response : Response} (failed : 400 ≤ response.status) (subject : String) :
    ∃ fault, response.Told subject fault ∧ response.check subject = .error (.fault fault) := by
  have explained := response.explains_explanation
  rw [check, fault?, if_neg (by omega)]
  split_ifs with conflict notFound
  · exact ⟨_, .conflict conflict explained, rfl⟩
  · exact ⟨_, .notFound notFound explained, rfl⟩
  · exact ⟨_, .other conflict notFound explained, rfl⟩

theorem check_passed {response : Response} (passed : response.status < 400) (subject : String) :
    response.check subject = .ok () := by
  simp [check, fault?, passed]

end Response

/-! ## Operations -/

namespace Remote

inductive Call where
  | openDatabase (db : Value)
  | save (db : String) (document : Value)
  | saveBatch (db : String) (documents : Value)
  | delete (db : String) (id rev : Value)
  | fetch (db : String) (id : Value)
  | fetchView (db : String) (design view options : Value)

namespace Call

def Answer : Call → Type
  | openDatabase _ => String
  | save .. => Entries
  | saveBatch .. => List BatchItem
  | delete .. | fetch .. | fetchView .. => Value

def exchange : (call : Call) → Outcome (Exchange call.Answer)
  | openDatabase db => Remote.openDatabase db
  | save db document => Remote.save db document
  | saveBatch db documents => Remote.saveBatch db documents
  | delete db id rev => Remote.delete db id rev
  | fetch db id => Remote.fetch db id
  | fetchView db design view options => Remote.fetchView db design view options

def subject : Call → String
  | openDatabase db => databaseSubject db.text
  | save _ document =>
      documentSubject (.ofOption ((document.entries?.getD []).find? (.str idField)))
  | saveBatch db _ => "bulk save to '" ++ db ++ "'"
  | delete _ id _ | fetch _ id => documentSubject id
  | fetchView _ design view _ => "view '" ++ design.text ++ "/" ++ view.text ++ "'"

end Call

section Decoding

variable {α β : Type}

def Misusing (outcome : Outcome α) : Prop :=
  outcome.Ends (fun _ => True) fun failure => ∃ misuse, failure = .misuse misuse

theorem misusing_ok (a : α) : Misusing (.ok a : Outcome α) := trivial

theorem misusing_ofOption (misuse : Misuse) (a? : Option α) :
    Misusing (.ofOption (.misuse misuse) a?) := by
  cases a? with
  | none => exact ⟨misuse, rfl⟩
  | some a => trivial

theorem Misusing.bind {outcome : Outcome α} {next : α → Outcome β} (first : Misusing outcome)
    (others : ∀ a, Misusing (next a)) : Misusing (outcome >>= next) :=
  Outcome.Ends.bind first fun a _ => others a

theorem misusing_mapM {f : α → Outcome β} (each : ∀ a, Misusing (f a)) (xs : List α) :
    Misusing (xs.mapM f) :=
  (Outcome.Ends.mapM (R := fun _ _ => True) fun x _ => each x).imp (fun _ _ => trivial)
    fun _ => id

theorem misusing_json (response : Response) : Misusing response.json := by
  rw [Response.json_eq]
  cases response.tree? with
  | none => exact ⟨.malformedText, rfl⟩
  | some tree => trivial

theorem misusing_items (v : Value) : Misusing v.items := misusing_ofOption _ _

theorem misusing_mapping (v : Value) : Misusing v.mapping := misusing_ofOption _ _

theorem misusing_get (v : Value) (key : String) : Misusing (v.get key) :=
  (misusing_mapping v).bind fun _ => trivial

theorem misusing_part (v : Value) (key : String) : Misusing (v.part key) := by
  rw [Value.part]
  split
  · exact misusing_ofOption _ _
  · exact ⟨.wrongType, rfl⟩

theorem misusing_savedDocument (document body : Value) : Misusing (savedDocument document body) :=
  (misusing_mapping document).bind fun _ =>
    (misusing_part body "id").bind fun _ => (misusing_part body "rev").bind fun _ => trivial

theorem misusing_batchItem (data : Value) : Misusing (BatchItem.ofValue data) :=
  (misusing_get data "id").bind fun _ => (misusing_get data "rev").bind fun _ =>
    (misusing_get data "error").bind fun _ => (misusing_get data "reason").bind fun _ => trivial

theorem misusing_rowsOf (body : Value) : Misusing (rowsOf body) :=
  Misusing.bind ((misusing_mapping body).bind fun _ => misusing_ok _) fun rows =>
    (misusing_items rows).bind fun _ => misusing_ok rows

end Decoding

namespace Call

structure Decodes (call : Call) (exchange : Exchange call.Answer)
    (decode : String → Outcome call.Answer) : Prop where
  read_eq (response : Response) : exchange.read response =
    (do response.check call.subject; decode response.body)
  misusing (body : String) : Misusing (decode body)

theorem decodes_json {call : Call} {exchange : Exchange call.Answer}
    (decode : Value → Outcome call.Answer)
    (read_eq : ∀ response, exchange.read response =
      (do response.check call.subject; response.json >>= decode))
    (misusing : ∀ body, Misusing (decode body)) : ∃ decode, call.Decodes exchange decode := by
  -- The status of the answer that is decoded does not matter: only its body is read.
  exact ⟨fun body => (⟨200, body⟩ : Response).json >>= decode, read_eq,
    fun body => (misusing_json _).bind misusing⟩

theorem exists_decodes {call : Call} {exchange : Exchange call.Answer}
    (built : call.exchange = .ok exchange) : ∃ decode, call.Decodes exchange decode := by
  cases call with
  | openDatabase db =>
    obtain ⟨name, named, built⟩ := Outcome.bind_eq_ok.mp built
    cases built
    refine ⟨fun _ => .ok name, fun response => ?_, fun _ => trivial⟩
    cases db <;> cases named
    rfl
  | save db document =>
    obtain ⟨id, found, built⟩ := Outcome.bind_eq_ok.mp built
    obtain ⟨request, -, built⟩ := Outcome.bind_eq_ok.mp built
    obtain ⟨entries, mapped, found⟩ := Outcome.bind_eq_ok.mp found
    cases built
    cases found
    have kept : document.entries? = some entries := by
      cases given : document.entries? <;> simp_all [Value.mapping, Outcome.ofOption]
    have named : subject (.save db document) =
        documentSubject (.ofOption (entries.find? (.str idField))) := by
      change documentSubject (.ofOption ((document.entries?.getD []).find? (.str idField))) = _
      rw [kept, Option.getD_some]
    refine decodes_json (savedDocument document) (fun response => ?_)
      (misusing_savedDocument document)
    rw [named]
    rfl
  | saveBatch db documents =>
    obtain ⟨body, -, built⟩ := Outcome.bind_eq_ok.mp built
    cases built
    exact decodes_json (fun body => body.items >>= List.mapM BatchItem.ofValue) (fun _ => rfl)
      fun body => (misusing_items body).bind (misusing_mapM misusing_batchItem)
  | delete db id rev =>
    obtain ⟨path, -, built⟩ := Outcome.bind_eq_ok.mp built
    cases built
    exact decodes_json (fun body => body.part "rev") (fun _ => rfl)
      fun body => misusing_part body "rev"
  | fetch db id =>
    obtain ⟨path, -, built⟩ := Outcome.bind_eq_ok.mp built
    cases built
    refine decodes_json .ok (fun response => ?_) misusing_ok
    have whole : response.json >>= Except.ok = response.json := bind_pure _
    exact congrArg (fun read => response.check (documentSubject id) >>= fun _ => read) whole.symm
  | fetchView db design view options =>
    obtain ⟨designName, -, built⟩ := Outcome.bind_eq_ok.mp built
    obtain ⟨viewName, -, built⟩ := Outcome.bind_eq_ok.mp built
    obtain ⟨request, -, built⟩ := Outcome.bind_eq_ok.mp built
    cases built
    exact decodes_json rowsOf (fun _ => rfl) misusing_rowsOf

end Call

theorem failure_told {call : Call} {exchange : Exchange call.Answer}
    (built : call.exchange = .ok exchange) (response : Response) :
    (400 ≤ response.status → ∃ fault, response.Told call.subject fault ∧
      exchange.read response = .error (.fault fault)) ∧
    (response.status < 400 →
      exchange.read response = exchange.read { response with status := 200 } ∧
      ∀ fault, exchange.read response ≠ .error (.fault fault)) := by
  obtain ⟨decode, decodes⟩ := Call.exists_decodes built
  constructor
  · intro failed
    obtain ⟨fault, told, check⟩ := response.check_failed failed call.subject
    refine ⟨fault, told, ?_⟩
    rw [decodes.read_eq, check]
    rfl
  · intro passed
    have read : exchange.read response = decode response.body := by
      rw [decodes.read_eq, Response.check_passed passed]
      rfl
    have success : exchange.read { response with status := 200 } = decode response.body := by
      rw [decodes.read_eq, Response.check_passed (show 200 < 400 by decide)]
      rfl
    refine ⟨read.trans success.symm, fun fault failed => ?_⟩
    have ends := decodes.misusing response.body
    rw [← read, failed] at ends
    obtain ⟨misuse, same⟩ := ends
    cases same

theorem failure_told_of_text_body :
    ∃ exchange, (Call.fetch "posts" (.str "a")).exchange = .ok exchange ∧
      ∃ fault, Response.Told ⟨500, "oops"⟩ "document 'a'" fault ∧
        exchange.read ⟨500, "oops"⟩ = .error (.fault fault) :=
  ⟨_, rfl, (@failure_told (.fetch "posts" (.str "a")) _ rfl ⟨500, "oops"⟩).1 (by decide)⟩

/-- A redirection ends no operation: to open a database succeeds on it, and a document is read
from its body. -/
theorem redirection_is_no_failure :
    ¬ ∀ (call : Call) (exchange : Exchange call.Answer), call.exchange = .ok exchange →
      ∀ response : Response, response.status < 200 ∨ 299 < response.status →
        ∃ fault, response.Told call.subject fault ∧
          exchange.read response = .error (.fault fault) := by
  intro told
  obtain ⟨fault, -, failed⟩ := told (.openDatabase (.str "posts")) _ rfl ⟨302, ""⟩ (by decide)
  cases failed

end Remote

end DocMapper
