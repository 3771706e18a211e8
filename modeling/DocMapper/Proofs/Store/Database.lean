import DocMapper.Proofs.Outcome
import DocMapper.Proofs.Value.Table
import DocMapper.Store.Database

/-!
# Steps of a database

A save is rejected, or files the document at the revision that follows the current
one, or fails after it lifted the tombstone.  A deletion is rejected or replaces the
document by a tombstone.  All of these keep a database sound: documents are filed
under their own identifiers, and no identifier is both live and deleted.
-/

namespace DocMapper

/-- The identifier of a document is a text, or left to the store. -/
def Named (document : Value) : Prop :=
  ∀ id, document.get idField = .ok id → id = .null ∨ ∃ s, id = .str s

namespace Database

def revision? (db : Database) (id : String) : Option Revision :=
  match db.documents.find? (.str id) with
  | some stored => some stored.revision
  | none => db.tombstones.find? (.str id)

theorem revision?_live {db : Database} {id : String} {stored : Stored}
    (h : db.documents.find? (.str id) = some stored) :
    db.revision? id = some stored.revision := by
  rw [revision?, h]

theorem permit_text (db : Database) (id : String) (document : Value) :
    db.permit (.str id) document = (do
      let rev ← document.get revField
      match db.documents.find? (.str id) with
      | some stored =>
          if rev.differs (.str stored.revision.text) then .error (conflict (.str id))
          else return some stored.revision
      | none =>
          if rev.isNull then return db.tombstones.find? (.str id)
          else .error (conflict (.str id))) := rfl

theorem permit_ok_iff {db : Database} {id : String} {document : Value}
    {previous : Option Revision} :
    db.permit (.str id) document = .ok previous ↔
      previous = db.revision? id ∧ ∃ rev, document.get revField = .ok rev ∧
        match db.documents.find? (.str id) with
        | some stored => rev.differs (.str stored.revision.text) = false
        | none => rev = .null := by
  rw [permit_text, Outcome.bind_eq_ok, revision?, ← exists_and_left]
  refine exists_congr fun rev => ?_
  rw [and_left_comm]
  apply and_congr_right
  intro _
  cases db.documents.find? (.str id) with
  | some stored =>
      cases h : rev.differs (.str stored.revision.text) <;>
        simp [h, pure, Except.pure, eq_comm]
  | none =>
      by_cases h : rev = .null
      · simp only [h, Value.isNull, pure, Except.pure, Except.ok.injEq, if_true, and_true]
        exact eq_comm
      · simp [Value.isNull_iff, h]

def lift (db : Database) (id : String) : Database :=
  { db with tombstones := db.tombstones.erase (.str id) }

def put (db : Database) (id : String) (stored : Stored) : Database :=
  { db.lift id with documents := db.documents.set (.str id) stored }

def bury (db : Database) (id : String) (revision : Revision) : Database :=
  { db with
    documents := db.documents.erase (.str id)
    tombstones := db.tombstones.set (.str id) revision }

def entry (fields : Entries) (id : String) (revision : Revision) : Stored :=
  ⟨filed fields (.str id) revision, revision⟩

/-- What a save does: it is rejected, files the document, or fails after the
tombstone was lifted.  It draws from the supply of tokens it is given. -/
inductive Saves (db : Database) (tokens : Tokens) (document : Value) : Effect Entries → Prop where
  | rejected (failure : Failure) (left : Tokens) (supply : left.token = tokens.token) :
      Saves db tokens document ⟨.error failure, db, left⟩
  | lifted (id : String) (failure : Failure) (left : Tokens)
      (supply : left.token = tokens.token)
      (permitted : db.permit (.str id) document = .ok (db.revision? id))
      (uncopyable : document.copyable = false) :
      Saves db tokens document ⟨.error failure, db.lift id, left⟩
  | filed (id : String) (fields : Entries) (revision : Revision) (left : Tokens)
      (supply : left.token = tokens.token)
      (identified : id ≠ "" ∨ id = tokens.next)
      (map : document = .map fields)
      (permitted : db.permit (.str id) document = .ok (db.revision? id))
      (next : ∃ token, revision = .after (db.revision? id) token) :
      Saves db tokens document
        ⟨.ok (filed fields (.str id) revision), db.put id (entry fields id revision), left⟩

theorem uncopyable_of_permit {db : Database} {id : String} {document : Value}
    {previous : Option Revision} (hp : db.permit (.str id) document = .ok previous)
    (other : ∀ fields, document = .map fields → document.copyable = true → False) :
    document.copyable = false := by
  obtain ⟨-, rev, hrev, -⟩ := permit_ok_iff.1 hp
  cases document with
  | map fields => exact Bool.eq_false_iff.2 fun h => other fields rfl h
  | readOnly fields => rfl
  | _ => cases hrev

theorem saveAs_saves (db : Database) (tokens left : Tokens)
    (supply : left.token = tokens.token)
    {id : String} (identified : id ≠ "" ∨ id = tokens.next) (document : Value) :
    Saves db tokens document (db.saveAs left (.str id) document) := by
  unfold saveAs
  cases hp : db.permit (.str id) document with
  | error failure => exact .rejected failure left supply
  | ok previous =>
      obtain rfl := (permit_ok_iff.1 hp).1
      simp only [file]
      split
      next fields _ =>
        exact .filed id fields _ left.rest supply identified rfl hp ⟨_, rfl⟩
      next other =>
        exact .lifted id .wrongType left.rest supply hp (uncopyable_of_permit hp other)

theorem save_saves {document : Value} (db : Database) (tokens : Tokens)
    (named : Named document) : Saves db tokens document (db.save tokens document) := by
  have fresh : Saves db tokens document (db.saveAs tokens.rest (.str tokens.next) document) :=
    saveAs_saves db tokens tokens.rest rfl (.inr rfl) document
  unfold save
  cases hid : document.get idField with
  | error failure => exact .rejected failure tokens rfl
  | ok id =>
      simp only
      obtain rfl | ⟨s, rfl⟩ := named id hid
      · exact fresh
      · split
        next given =>
          have nonempty : s ≠ "" := by
            rintro rfl
            cases given
          exact saveAs_saves db tokens tokens rfl (.inl nonempty) document
        · exact fresh

theorem save_named {fields : Entries} {id : String} (db : Database) (tokens : Tokens)
    (h : fields.find? (.str idField) = some (.str id)) (nonempty : id ≠ "") :
    db.save tokens (.map fields) = db.saveAs tokens (.str id) (.map fields) := by
  have read : (Value.map fields).get idField = .ok (.str id) :=
    congrArg (fun v => Except.ok (Value.ofOption v)) h
  have truthy : (Value.str id).truthy = true := by
    simpa [Value.truthy] using nonempty
  rw [save, read]
  simp only [truthy, if_true]

theorem file_map (db : Database) (tokens : Tokens) (id : String) (fields : Entries)
    (previous : Option Revision) :
    db.file tokens (.str id) (.map fields) previous =
      if (Value.map fields).copyable then
        ⟨.ok (Database.filed fields (.str id) (.after previous tokens.next)),
          db.put id (entry fields id (.after previous tokens.next)), tokens.rest⟩
      else .fail .wrongType (db.lift id) tokens.rest := by
  cases h : (Value.map fields).copyable <;> simp only [file, h] <;> rfl

/-- What a deletion does: it is rejected, or buries the document. -/
inductive Deletes (db : Database) (tokens : Tokens) (id : String) (rev : Value) :
    Effect Revision → Prop where
  | rejected (failure : Failure) : Deletes db tokens id rev ⟨.error failure, db, tokens⟩
  | buried (stored : Stored) (revision : Revision) (left : Tokens)
      (supply : left.token = tokens.token)
      (live : db.documents.find? (.str id) = some stored)
      (presented : (Value.str stored.revision.text).differs rev = false)
      (next : ∃ token, revision = .after (some stored.revision) token) :
      Deletes db tokens id rev ⟨.ok revision, db.bury id revision, left⟩

theorem current_text (db : Database) (id : String) (absence : Value) :
    db.current (.str id) absence = match db.documents.find? (.str id) with
      | some stored => .ok stored
      | none => .error (notFound (.str id) absence) := rfl

theorem fetch_text (db : Database) (id : String) :
    db.fetch (.str id) = match db.documents.find? (.str id) with
      | some stored => .ok stored.fields
      | none => .error (notFound (.str id) .null) := by
  rw [fetch, current_text]
  cases db.documents.find? (.str id) <;> rfl

theorem delete_deletes (db : Database) (tokens : Tokens) (id : String) (rev : Value) :
    Deletes db tokens id rev (db.delete tokens (.str id) rev) := by
  rw [delete, current_text]
  cases hlive : db.documents.find? (.str id) with
  | none => exact .rejected _
  | some stored =>
      simp only
      split
      · exact .rejected _
      next hd =>
        exact .buried stored _ tokens.rest rfl hlive (Bool.eq_false_iff.2 hd) ⟨_, rfl⟩

section Revisions

variable (db : Database) (id other : String) (stored : Stored) (revision : Revision)

theorem revision?_lift : (db.lift id).revision? other =
    if id = other then (db.documents.find? (.str id)).map Stored.revision
    else db.revision? other := by
  simp only [revision?, lift, Keyed.find?_erase, Value.sameKey_str, beq_iff_eq]
  by_cases h : id = other
  · subst h
    cases db.documents.find? (.str id) <;> simp
  · simp [h]

theorem revision?_put : (db.put id stored).revision? other =
    if id = other then some stored.revision else db.revision? other := by
  simp only [revision?, put, lift, Keyed.find?_set_text, Keyed.find?_erase,
    Value.sameKey_str, beq_iff_eq]
  by_cases h : id = other <;> simp [h]

theorem revision?_bury : (db.bury id revision).revision? other =
    if id = other then some revision else db.revision? other := by
  simp only [revision?, bury, Keyed.find?_set_text, Keyed.find?_erase,
    Value.sameKey_str, beq_iff_eq]
  by_cases h : id = other <;> simp [h]

end Revisions

/-! ## Sound databases -/

def Carries (id : String) (stored : Stored) : Prop :=
  stored.fields.find? (.str idField) = some (.str id) ∧
    stored.fields.find? (.str revField) = some (.str stored.revision.text)

structure Sound (db : Database) : Prop where
  filed : ∀ key stored, (key, stored) ∈ db.documents →
    ∃ id : String, key = .str id ∧ Carries id stored
  distinct : db.documents.Distinct
  apart : ∀ id : String, (db.documents.find? (.str id)).isSome →
    db.tombstones.find? (.str id) = none

theorem sound_empty : Sound empty where
  filed _ _ mem := by cases mem
  distinct := List.Pairwise.nil
  apart _ live := by cases live

theorem carries_entry (fields : Entries) (id : String) (revision : Revision) :
    Carries id (entry fields id revision) := by
  constructor <;> simp [entry, Database.filed, idField, revField]

theorem identifierOf_filed (fields : Entries) (id : Value) (revision : Revision) :
    identifierOf (Database.filed fields id revision) = id := by
  simp [identifierOf, Database.filed, Value.ofOption, idField, revField]

theorem revisionOf_filed (fields : Entries) (id : Value) (revision : Revision) :
    revisionOf (Database.filed fields id revision) = .str revision.text := by
  simp [revisionOf, Database.filed, Value.ofOption]

namespace Sound

variable {db : Database} (sound : Sound db)

include sound

theorem carries {id : String} {stored : Stored}
    (h : db.documents.find? (.str id) = some stored) : Carries id stored := by
  obtain ⟨key, mem, same⟩ := Keyed.mem_of_find? h
  obtain ⟨id', rfl, carried⟩ := sound.filed key stored mem
  rw [Value.sameKey_str, beq_iff_eq] at same
  exact same ▸ carried

theorem lift (id : String) : Sound (db.lift id) := by
  refine ⟨sound.filed, sound.distinct, fun id' live => ?_⟩
  rw [Database.lift, Keyed.find?_erase, sound.apart id' live]
  split <;> rfl

theorem put {id : String} {stored : Stored} (carried : Carries id stored) :
    Sound (db.put id stored) := by
  refine ⟨?_, sound.distinct.set _ _, ?_⟩
  · intro key stored' mem
    obtain mem | ⟨rfl, rfl | ⟨same, old, mem⟩⟩ := Keyed.mem_set mem
    · exact sound.filed key stored' mem
    · exact ⟨id, rfl, carried⟩
    · obtain ⟨id', rfl, -⟩ := sound.filed key old mem
      rw [Value.sameKey_str, beq_iff_eq] at same
      exact ⟨id', rfl, same ▸ carried⟩
  · intro id' live
    simp only [Database.put, Database.lift, Keyed.find?_set_text, Keyed.find?_erase,
      Value.sameKey_str, beq_iff_eq] at live ⊢
    by_cases h : id = id'
    · rw [if_pos h]
    · rw [if_neg h] at live ⊢
      exact sound.apart id' live

theorem bury (id : String) (revision : Revision) : Sound (db.bury id revision) := by
  refine ⟨?_, sound.distinct.erase _, ?_⟩
  · intro key stored mem
    exact sound.filed key stored (List.mem_filter.1 mem).1
  · intro id' live
    simp only [Database.bury, Keyed.find?_set_text, Keyed.find?_erase,
      Value.sameKey_str, beq_iff_eq] at live ⊢
    by_cases h : id = id'
    · rw [if_pos h] at live
      cases live
    · rw [if_neg h] at live ⊢
      exact sound.apart id' live

theorem save {tokens : Tokens} {document : Value} {effect : Effect Entries}
    (h : Saves db tokens document effect) : Sound effect.database := by
  cases h with
  | rejected => exact sound
  | lifted id => exact sound.lift id
  | filed id fields revision => exact sound.put (carries_entry fields id revision)

theorem delete {tokens : Tokens} {id : String} {rev : Value} {effect : Effect Revision}
    (h : Deletes db tokens id rev effect) : Sound effect.database := by
  cases h with
  | rejected => exact sound
  | buried stored revision => exact sound.bury id revision

end Sound

end Database

end DocMapper
