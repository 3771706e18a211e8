import DocMapper.Http.Url
import DocMapper.Json.Reader
import DocMapper.Json.Writer
import DocMapper.Logging.Record
import DocMapper.Settings.Basic
import DocMapper.Text.Base64
import DocMapper.Text.Blank

/-!
# Exchanges with a server

An operation on a remote store is a request and a way to read its answer.
Statuses from 400 on are failures; what the server says about them is taken from
the body.
-/

namespace DocMapper

inductive Method where
  | head
  | get
  | put
  | post
  | delete
  deriving DecidableEq, Repr

def Method.name : Method → String
  | .head => "HEAD"
  | .get => "GET"
  | .put => "PUT"
  | .post => "POST"
  | .delete => "DELETE"

structure Request where
  method : Method
  /-- Percent-encoded. -/
  path : String
  /-- Names and values, not encoded. -/
  query : List (String × String)
  body : Option Json
  deriving BEq, Repr

namespace Request

def plain (method : Method) (path : String) : Request := ⟨method, path, [], none⟩

end Request

mutual

/-- Infinities stand nowhere in the tree. -/
def Json.allFinite : Json → Bool
  | .float (.infinite _) => false
  | .array items => Json.allFiniteItems items
  | .object members => Json.allFiniteMembers members
  | _ => true
termination_by structural x => x

def Json.allFiniteItems : List Json → Bool
  | [] => true
  | j :: js => j.allFinite && Json.allFiniteItems js
termination_by structural x => x

def Json.allFiniteMembers : List (String × Json) → Bool
  | [] => true
  | (_, j) :: rest => j.allFinite && Json.allFiniteMembers rest
termination_by structural x => x

end

/-- A value as the body of a request, in which infinities cannot be written. -/
def requestBody (v : Value) : Outcome Json :=
  match v.toJson? false with
  | some j => if j.allFinite then .ok j else .error (.misuse .wrongValue)
  | none => .error .wrongType

structure Response where
  status : Nat
  body : String
  deriving DecidableEq, Repr

inductive Reply where
  | answered (response : Response)
  | unreachable (message : String)
  deriving DecidableEq, Repr

namespace Response

/-- The value of a body; a mark of byte order at its front is passed over. -/
def json (response : Response) : Outcome Value :=
  match Json.read? (String.ofList (Text.withoutByteOrderMark response.body.toList)) with
  | some j => .ok j.toValue
  | none => .error (.misuse .malformedText)

/-- Error and reason that a body gives: members of an object, or else the body
itself as the reason. -/
def explanation (response : Response) : Value × Value :=
  if response.body.isEmpty then (.null, .null)
  else
    match response.json with
    | .ok (.map entries) =>
        (.ofOption (Keyed.find? entries (.str "error")),
          .ofOption (Keyed.find? entries (.str "reason")))
    | _ => (.null, .str response.body)

def failureMessage (status : Nat) (subject : String) (error reason : Value) : String :=
  Text.strip ("CouchDB returned " ++ toString status ++ " for " ++ subject ++ ": " ++
    (error.orElse (.str "")).text ++ " " ++ (reason.orElse (.str "")).text)

def fault? (response : Response) (subject : String) : Option Fault :=
  if response.status < 400 then none
  else
    let (error, reason) := response.explanation
    if response.status = 409 then some (.conflict (.str ("Conflict on " ++ subject)) reason)
    else if response.status = 404 then some (.notFound (.str ("Not found: " ++ subject)) reason)
    else
      some (.store (.str (failureMessage response.status subject error reason))
        (.int response.status) error reason (.str "STORE_ERROR"))

def check (response : Response) (subject : String) : Outcome Unit :=
  match response.fault? subject with
  | some fault => .error (.fault fault)
  | none => .ok ()

end Response

/-! ## Exchanges -/

structure Exchange (α : Type) where
  request : Request
  read : Response → Outcome α

structure Server where
  /-- As it was given. -/
  address : String
  url : Url
  authorization : Option String
  deriving DecidableEq, Repr

namespace Server

def basicAuthorization (credentials : String × String) : String :=
  "Basic " ++
    String.ofList (Base64.encode (Text.utf8 (credentials.1 ++ ":" ++ credentials.2)))

/-- Credentials of the settings count before those of the address. -/
def ofSettings (settings : StoreSettings) : Server :=
  let url := Url.ofText settings.url
  ⟨settings.url, url, (settings.credentials?.or url.user).map basicAuthorization⟩

def path (server : Server) (request : Request) : String := server.url.resolve request.path

def accept : String := "application/json"

def unreachable (server : Server) (message : String) : Fault :=
  .connection (.str ("Failed to reach CouchDB: " ++ message)) (.str server.address)

def finish {α : Type} (server : Server) (exchange : Exchange α) : Reply → Outcome α
  | .answered response => exchange.read response
  | .unreachable message => .error (.fault (server.unreachable message))

def created (settings : StoreSettings) : LogRecord :=
  ⟨.info, "couchview.store.http", "CouchDB client created",
    [("store_url", .str settings.url), ("max_connections", .int settings.maxConnections)]⟩

def closed (settings : StoreSettings) : LogRecord :=
  ⟨.info, "couchview.store.http", "CouchDB client closed", [("store_url", .str settings.url)]⟩

end Server

end DocMapper
