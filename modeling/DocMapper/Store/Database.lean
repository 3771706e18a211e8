import DocMapper.Schema.DesignDocument
import DocMapper.Store.BatchItem
import DocMapper.Store.Revision

/-!
# Databases

A database files documents under their identifiers.  A write is accepted only if
it presents the current revision of the document, or none for a document that
does not exist.  A deleted document leaves a tombstone, so that a document
created again goes on from the revision of the deletion.
-/

namespace DocMapper

/-- What a view emits for a document: the document under its identifier, or
nothing under the value of one field. -/
inductive ViewMap where
  | byIdentifier
  | byField (name : String)
  deriving DecidableEq, Repr

/-- A live document and its current revision, whose text is the document's
revision field. -/
structure Stored where
  fields : Entries
  revision : Revision
  deriving BEq, Repr

structure Database where
  documents : Keyed Stored
  tombstones : Keyed Revision
  /-- By design and name. -/
  views : Keyed ViewMap
  deriving BEq, Repr

/-- The result of a step on a database: what it answers, and the database and the
supply of tokens that it leaves. -/
structure Effect (α : Type) where
  outcome : Outcome α
  database : Database
  tokens : Tokens

namespace Effect

def fail {α : Type} (failure : Failure) (db : Database) (tokens : Tokens) : Effect α :=
  ⟨.error failure, db, tokens⟩

end Effect

namespace Database

def empty : Database := ⟨[], [], []⟩

def conflict (id : Value) : Failure :=
  .fault (.conflict (.str ("Conflict on document '" ++ id.text ++ "'")) .null)

def notFound (id reason : Value) : Failure :=
  .fault (.notFound (.str ("Not found: document '" ++ id.text ++ "'")) reason)

/-! ## Saving -/

/-- The revision that a write of a document would follow, if the document
presents the right one. -/
def permit (db : Database) (id document : Value) : Outcome (Option Revision) := do
  id.requireHashable
  let rev ← document.get revField
  match db.documents.find? id with
  | some stored =>
      if rev.differs (.str stored.revision.text) then .error (conflict id)
      else return some stored.revision
  | none => if rev.isNull then return db.tombstones.find? id else .error (conflict id)

def filed (fields : Entries) (id : Value) (revision : Revision) : Entries :=
  (fields.set (.str idField) id).set (.str revField) (.str revision.text)

/-- Files a permitted document.  The tombstone is lifted even if the document
turns out to be one that cannot be copied. -/
def file (db : Database) (tokens : Tokens) (id document : Value) (previous : Option Revision) :
    Effect Entries :=
  let revision := Revision.after previous tokens.next
  let db := { db with tombstones := db.tombstones.erase id }
  match document, document.copyable with
  | .map fields, true =>
      let fields := filed fields id revision
      ⟨.ok fields, { db with documents := db.documents.set id ⟨fields, revision⟩ }, tokens.rest⟩
  | _, _ => .fail .wrongType db tokens.rest

def saveAs (db : Database) (tokens : Tokens) (id document : Value) : Effect Entries :=
  match db.permit id document with
  | .ok previous => db.file tokens id document previous
  | .error failure => .fail failure db tokens

/-- Saves a document; one without an identifier is given a token as its own. -/
def save (db : Database) (tokens : Tokens) (document : Value) : Effect Entries :=
  match document.get idField with
  | .ok id =>
      if id.truthy then db.saveAs tokens id document
      else db.saveAs tokens.rest (.str tokens.next) document
  | .error failure => .fail failure db tokens

def identifierOf (fields : Entries) : Value := .ofOption (fields.find? (.str idField))

def revisionOf (fields : Entries) : Value := .ofOption (fields.find? (.str revField))

/-- The item of one document of a batch.  A conflict rejects the document alone;
any other failure ends the batch. -/
def saveItem (db : Database) (tokens : Tokens) (document : Value) : Effect BatchItem :=
  match db.save tokens document with
  | ⟨.ok fields, db, tokens⟩ => ⟨.ok (.saved (identifierOf fields) (revisionOf fields)), db, tokens⟩
  | ⟨.error (.fault (.conflict message reason)), db, tokens⟩ =>
      let rejection := (Fault.conflict message reason).reason
      ⟨return .rejected (← document.get idField) rejection, db, tokens⟩
  | ⟨.error failure, db, tokens⟩ => .fail failure db tokens

def saveBatch (db : Database) (tokens : Tokens) : List Value → Effect (List BatchItem)
  | [] => ⟨.ok [], db, tokens⟩
  | document :: rest =>
      match db.saveItem tokens document with
      | ⟨.error failure, db, tokens⟩ => .fail failure db tokens
      | ⟨.ok item, db, tokens⟩ =>
          match db.saveBatch tokens rest with
          | ⟨.error failure, db, tokens⟩ => .fail failure db tokens
          | ⟨.ok items, db, tokens⟩ => ⟨.ok (item :: items), db, tokens⟩

def current (db : Database) (id absence : Value) : Outcome Stored := do
  id.requireHashable
  match db.documents.find? id with
  | some stored => return stored
  | none => .error (notFound id absence)

def delete (db : Database) (tokens : Tokens) (id rev : Value) : Effect Revision :=
  match db.current id (.str (if db.tombstones.has id then "deleted" else "missing")) with
  | .error failure => .fail failure db tokens
  | .ok stored =>
      if (Value.str stored.revision.text).differs rev then .fail (conflict id) db tokens
      else
        let revision := Revision.after (some stored.revision) tokens.next
        ⟨.ok revision,
          { db with
            documents := db.documents.erase id
            tombstones := db.tombstones.set id revision }, tokens.rest⟩

def fetch (db : Database) (id : Value) : Outcome Entries := do
  return (← db.current id .null).fields

def isDesignId : Value → Outcome Bool
  | .str s => .ok (designPrefix.toList.isPrefixOf s.toList)
  | .bytes _ => .error .wrongType
  | _ => .error .noSuchPart

def count (db : Database) : Outcome Nat := do
  let kept ← db.documents.filterM fun d => do return !(← isDesignId d.1)
  return kept.length

end Database

end DocMapper
