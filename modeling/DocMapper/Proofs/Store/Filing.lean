import DocMapper.Proofs.Store.Accepted

/-!
# What becomes of a document

A document is filed under its own identifier, or under a token if that one is missing or
empty.  Whatever value the identifier is, one of four things happens: it cannot be a key,
the document does not present the awaited revision, it cannot be copied, or it is filed.
-/

namespace DocMapper

namespace Database

/-- Where a document is to be filed, and the supply of tokens that is left for it. -/
def place (tokens : Tokens) (fields : Entries) : Value × Tokens :=
  if (identifierOf fields).truthy then (identifierOf fields, tokens)
  else (.str tokens.next, tokens.rest)

/-- The revision that a document has to present; null if none is live. -/
def awaited (db : Database) (id : Value) : Value :=
  match db.documents.find? id with
  | some stored => .str stored.revision.text
  | none => .null

def previous? (db : Database) (id : Value) : Option Revision :=
  match db.documents.find? id with
  | some stored => some stored.revision
  | none => db.tombstones.find? id

structure Admits (db : Database) (id : Value) (fields : Entries) : Prop where
  hashable : id.hashable = true
  presented : revisionOf fields = db.awaited id

def raise (db : Database) (id : Value) : Database :=
  { db with tombstones := db.tombstones.erase id }

def enter (db : Database) (id : Value) (stored : Stored) : Database :=
  { db.raise id with documents := db.documents.set id stored }

inductive Files (db : Database) (tokens : Tokens) (id : Value) (fields : Entries) :
    Effect Entries → Prop where
  | odd (unhashable : id.hashable = false) :
      Files db tokens id fields (.fail .wrongType db tokens)
  | stale (hashable : id.hashable = true) (refused : revisionOf fields ≠ db.awaited id) :
      Files db tokens id fields (.fail (conflict id) db tokens)
  | fixed (admitted : db.Admits id fields) (uncopyable : (Value.map fields).copyable = false) :
      Files db tokens id fields (.fail .wrongType (db.raise id) tokens.rest)
  | filed (revision : Revision) (next : revision = .after (db.previous? id) tokens.next)
      (admitted : db.Admits id fields) (copyable : (Value.map fields).copyable = true) :
      Files db tokens id fields
        ⟨.ok (Database.filed fields id revision),
          db.enter id ⟨Database.filed fields id revision, revision⟩, tokens.rest⟩

theorem permit_map (db : Database) {id : Value} (hashable : id.hashable = true)
    (fields : Entries) :
    (revisionOf fields = db.awaited id ∧
      db.permit id (.map fields) = .ok (db.previous? id)) ∨
    (revisionOf fields ≠ db.awaited id ∧
      db.permit id (.map fields) = .error (conflict id)) := by
  have read : db.permit id (.map fields) =
      match db.documents.find? id with
      | some stored =>
          if (revisionOf fields).differs (.str stored.revision.text) then .error (conflict id)
          else .ok (some stored.revision)
      | none =>
          if (revisionOf fields).isNull then .ok (db.tombstones.find? id)
          else .error (conflict id) := by
    rw [permit, Value.requireHashable, if_pos hashable]
    rfl
  rw [read, awaited, previous?]
  cases db.documents.find? id with
  | some stored =>
      dsimp only
      cases moved : (revisionOf fields).differs (.str stored.revision.text) with
      | false => exact .inl ⟨differs_text.1 moved, rfl⟩
      | true =>
          refine .inr ⟨fun same => ?_, rfl⟩
          rw [differs_text.2 same] at moved
          cases moved
  | none =>
      cases unset : (revisionOf fields).isNull with
      | true => exact .inl ⟨Value.isNull_iff.1 unset, rfl⟩
      | false =>
          refine .inr ⟨fun same => ?_, rfl⟩
          rw [Value.isNull_iff.2 same] at unset
          cases unset

theorem saveAs_files (db : Database) (tokens : Tokens) (id : Value) (fields : Entries) :
    Files db tokens id fields (db.saveAs tokens id (.map fields)) := by
  unfold saveAs
  cases hashable : id.hashable with
  | false =>
      have refused : db.permit id (.map fields) = .error .wrongType := by
        rw [permit, Value.requireHashable, hashable]
        rfl
      rw [refused]
      exact .odd hashable
  | true =>
      obtain ⟨presented, permitted⟩ | ⟨refused, conflicting⟩ := db.permit_map hashable fields
      · rw [permitted]
        simp only [file]
        cases copyable : (Value.map fields).copyable with
        | true => exact .filed _ rfl ⟨hashable, presented⟩ copyable
        | false => exact .fixed ⟨hashable, presented⟩ copyable
      · rw [conflicting]
        exact .stale hashable refused

theorem save_place (db : Database) (tokens : Tokens) (fields : Entries) :
    db.save tokens (.map fields) =
      db.saveAs (place tokens fields).2 (place tokens fields).1 (.map fields) := by
  have read : (Value.map fields).get idField = .ok (identifierOf fields) := rfl
  rw [save, read, place]
  dsimp only
  split <;> rfl

theorem save_files (db : Database) (tokens : Tokens) (fields : Entries) :
    Files db (place tokens fields).2 (place tokens fields).1 fields
      (db.save tokens (.map fields)) := by
  rw [save_place]
  exact saveAs_files ..

def itemOf (fields : Entries) : Outcome Entries → Outcome BatchItem
  | .ok saved => .ok (.saved (identifierOf saved) (revisionOf saved))
  | .error (.fault (.conflict message reason)) =>
      .ok (.rejected (identifierOf fields) (Fault.conflict message reason).reason)
  | .error failure => .error failure

theorem saveItem_map {db : Database} {tokens : Tokens} {fields : Entries}
    {effect : Effect Entries} (saved : db.save tokens (.map fields) = effect) :
    db.saveItem tokens (.map fields) =
      ⟨itemOf fields effect.outcome, effect.database, effect.tokens⟩ := by
  rw [saveItem, saved]
  rcases effect with ⟨failure | saved, db', tokens'⟩
  · cases failure with
    | fault fault => cases fault <;> rfl
    | _ => rfl
  · rfl

theorem saveBatch_map {db : Database} {tokens : Tokens} {fields : Entries}
    {effect : Effect Entries} (saved : db.save tokens (.map fields) = effect)
    (rest : List Value) :
    db.saveBatch tokens (.map fields :: rest) =
      match itemOf fields effect.outcome with
      | .error failure => .fail failure effect.database effect.tokens
      | .ok item =>
          ⟨do return item :: (← (effect.database.saveBatch effect.tokens rest).outcome),
            (effect.database.saveBatch effect.tokens rest).database,
            (effect.database.saveBatch effect.tokens rest).tokens⟩ := by
  rw [saveBatch, saveItem_map saved]
  cases itemOf fields effect.outcome with
  | error failure => rfl
  | ok item =>
      dsimp only
      rcases effect.database.saveBatch effect.tokens rest with ⟨_ | items, _, _⟩ <;> rfl

end Database

end DocMapper
