import DocMapper.Proofs.Store.Journal
import DocMapper.Proofs.Value.Json

/-!
# Accepted writes

An accepted write presents the current revision of its document, or none, and
takes the generation of the identifier one further.  Other documents stay as they
are.  A rejected write changes nothing, unless it lifts a tombstone.
-/

namespace DocMapper

theorem differs_text {v : Value} {s : String} :
    v.differs (.str s) = false ↔ v = .str s := by
  constructor
  · intro h
    rw [Value.differs] at h
    cases v with
    | str t =>
        rw [Value.same_str] at h
        simpa [Value.isViewRef] using h
    | _ => simp [Value.isViewRef, Value.same, Value.agree, Value.against, Value.isNull,
        Value.quantity?, Value.entries?] at h
  · rintro rfl
    simp [Value.differs, Value.isViewRef, Value.same_str]

theorem text_differs {v : Value} {s : String} :
    (Value.str s).differs v = false ↔ v = .str s := by
  constructor
  · intro h
    rw [Value.differs] at h
    cases v with
    | str t =>
        rw [Value.same_str] at h
        simp [Value.isViewRef] at h
        rw [h]
    | _ => simp [Value.isViewRef, Value.same, Value.agree, Value.against] at h
  · rintro rfl
    simp [Value.differs, Value.isViewRef, Value.same_str]

namespace Database

/-- The generation of the current revision; zero before the first write. -/
def generation (db : Database) (id : String) : Nat :=
  ((db.revision? id).map Revision.generation).getD 0

theorem generation_live {db : Database} {id : String} {stored : Stored}
    (h : db.documents.find? (.str id) = some stored) :
    db.generation id = stored.revision.generation := by
  rw [generation, revision?_live h]
  rfl

def Identified (db : Database) : Prop := db.documents.find? (.str "") = none

theorem identified_put {db : Database} {id : String} {stored : Stored}
    (h : db.Identified) (nonempty : id ≠ "") : (db.put id stored).Identified := by
  rw [Identified, put, lift, Keyed.find?_set_text, if_neg nonempty]
  exact h

theorem identified_bury {db : Database} {id : String} {revision : Revision}
    (h : db.Identified) : (db.bury id revision).Identified := by
  rw [Identified, bury, Keyed.find?_erase, h]
  split <;> rfl

structure Written (db db' : Database) (id : String) (presented : Value) : Prop where
  sound : db'.Sound
  identified : db'.Identified
  next : db'.generation id = db.generation id + 1
  documents : ∀ other : String, other ≠ id →
    db'.documents.find? (.str other) = db.documents.find? (.str other)
  generations : ∀ other : String, other ≠ id → db'.generation other = db.generation other
  presented : presented = .null ∨ ∃ stored, db.documents.find? (.str id) = some stored ∧
    presented = .str stored.revision.text

theorem presented_of_permit {db : Database} {id : String} {fields : Entries}
    (h : db.permit (.str id) (.map fields) = .ok (db.revision? id)) :
    match db.documents.find? (.str id) with
    | some stored => revisionOf fields = .str stored.revision.text
    | none => revisionOf fields = .null := by
  obtain ⟨-, rev, hrev, hcurrent⟩ := permit_ok_iff.1 h
  have read : revisionOf fields = rev := Except.ok.inj hrev
  rw [read]
  cases hlive : db.documents.find? (.str id) with
  | some stored =>
      rw [hlive] at hcurrent
      exact differs_text.1 hcurrent
  | none =>
      rw [hlive] at hcurrent
      exact hcurrent

theorem written_put {db : Database} {id : String} {fields : Entries} {token : String}
    (sound : db.Sound) (identified : db.Identified) (nonempty : id ≠ "")
    (permitted : db.permit (.str id) (.map fields) = .ok (db.revision? id)) :
    Written db (db.put id (entry fields id (.after (db.revision? id) token))) id
      (revisionOf fields) where
  sound := sound.put (carries_entry ..)
  identified := identified_put identified nonempty
  next := by
    rw [generation, revision?_put, if_pos rfl]
    rfl
  documents other h := by
    rw [put, lift, Keyed.find?_set_text, if_neg (Ne.symm h)]
  generations other h := by
    rw [generation, revision?_put, if_neg (Ne.symm h)]
    rfl
  presented := by
    have presented := presented_of_permit permitted
    cases hlive : db.documents.find? (.str id) with
    | some stored =>
        rw [hlive] at presented
        exact .inr ⟨stored, rfl, presented⟩
    | none =>
        rw [hlive] at presented
        exact .inl presented

theorem written_bury {db : Database} {id : String} {stored : Stored} {token : String}
    (sound : db.Sound) (identified : db.Identified)
    (live : db.documents.find? (.str id) = some stored) :
    Written db (db.bury id (.after (some stored.revision) token)) id
      (.str stored.revision.text) where
  sound := sound.bury id _
  identified := identified_bury identified
  next := by
    rw [generation_live live, generation, revision?_bury, if_pos rfl]
    rfl
  documents other h := by
    rw [bury, Keyed.find?_erase, Value.sameKey_str, if_neg]
    simpa using Ne.symm h
  generations other h := by
    rw [generation, revision?_bury, if_neg (Ne.symm h)]
    rfl
  presented := .inr ⟨stored, live, rfl⟩

/-! ## Saves and deletions -/

theorem lift_eq_self {db : Database} {id : String}
    (h : db.tombstones.find? (.str id) = none) : db.lift id = db := by
  have absent : ∀ e ∈ db.tombstones, (!e.1.sameKey (.str id)) = true := by
    intro e mem
    rw [Keyed.find?, Option.map_eq_none_iff, List.find?_eq_none] at h
    simpa using h e mem
  rw [lift, Keyed.erase, List.filter_eq_self.2 absent]

/-- A save that does not threaten a tombstone changes nothing, or is accepted. -/
theorem save_written {db : Database} {tokens : Tokens} {fields : Entries}
    {effect : Effect Entries} (sound : db.Sound) (identified : db.Identified)
    (supply : ∀ n, tokens.token n ≠ "") (saves : db.Saves tokens (.map fields) effect)
    (safe : (Value.map fields).copyable = true ∨ revisionOf fields ≠ .null) :
    ((∃ failure, effect.outcome = .error failure) ∧ effect.database = db) ∨
    ∃ id revision, effect.outcome = .ok (filed fields (.str id) revision) ∧
      effect.database = db.put id (entry fields id revision) ∧
      Written db effect.database id (revisionOf fields) := by
  cases saves with
  | rejected failure => exact .inl ⟨⟨failure, rfl⟩, rfl⟩
  | lifted id failure left supply permitted uncopyable =>
      refine .inl ⟨⟨failure, rfl⟩, lift_eq_self ?_⟩
      rw [uncopyable] at safe
      have presented := presented_of_permit permitted
      cases hlive : db.documents.find? (.str id) with
      | some stored => exact sound.apart id (by rw [hlive]; rfl)
      | none =>
          rw [hlive] at presented
          obtain h | h := safe
          · cases h
          · exact absurd presented h
  | filed id fields' revision left same named map permitted next =>
      cases map
      obtain ⟨token, rfl⟩ := next
      have nonempty : id ≠ "" := by
        obtain h | rfl := named
        · exact h
        · exact supply _
      exact .inr ⟨id, _, rfl, rfl, written_put sound identified nonempty permitted⟩

theorem delete_written {db : Database} {tokens : Tokens} {id : String} {rev : Value}
    {effect : Effect Revision} (sound : db.Sound) (identified : db.Identified)
    (deletes : db.Deletes tokens id rev effect) :
    (effect.outcome.isOk = false ∧ effect.database = db) ∨
    (effect.outcome.isOk = true ∧ Written db effect.database id rev) := by
  cases deletes with
  | rejected failure => exact .inl ⟨rfl, rfl⟩
  | buried stored revision left supply live presented next =>
      obtain ⟨token, rfl⟩ := next
      rw [text_differs.1 presented]
      exact .inr ⟨rfl, written_bury sound identified live⟩

theorem Saves.supply_eq {db : Database} {tokens : Tokens} {document : Value}
    {effect : Effect Entries} (h : db.Saves tokens document effect) :
    effect.tokens.token = tokens.token := by
  cases h <;> assumption

theorem Deletes.supply_eq {db : Database} {tokens : Tokens} {id : String} {rev : Value}
    {effect : Effect Revision} (h : db.Deletes tokens id rev effect) :
    effect.tokens.token = tokens.token := by
  cases h with
  | rejected => rfl
  | buried stored revision left supply => exact supply

/-- Calls on an empty database lead to it, with documents identified by texts and
tokens that are not empty. -/
def Reached (db : Database) : Prop :=
  ∃ (tokens : Tokens) (calls : List Call), (∀ n, tokens.token n ≠ "") ∧
    (∀ c ∈ calls, ∀ document ∈ c.documents, Named document) ∧
    db = ((Journal.start tokens).run calls).database

theorem Reached.sound {db : Database} (h : db.Reached) : db.Sound := by
  obtain ⟨tokens, calls, -, named, rfl⟩ := h
  exact (Journal.kept_run named (Journal.kept_start tokens)).sound

theorem identified_save {db : Database} {tokens : Tokens} {document : Value}
    {effect : Effect Entries} (h : db.Identified) (supply : ∀ n, tokens.token n ≠ "")
    (saves : db.Saves tokens document effect) : effect.database.Identified := by
  cases saves with
  | rejected => exact h
  | lifted => exact h
  | filed id fields revision left same named =>
      have nonempty : id ≠ "" := by
        obtain h | rfl := named
        · exact h
        · exact supply _
      exact identified_put h nonempty

theorem identified_delete {db : Database} {tokens : Tokens} {id : String} {rev : Value}
    {effect : Effect Revision} (h : db.Identified) (deletes : db.Deletes tokens id rev effect) :
    effect.database.Identified := by
  cases deletes with
  | rejected => exact h
  | buried => exact identified_bury h

theorem Reached.identified {db : Database} (h : db.Reached) : db.Identified := by
  obtain ⟨tokens, calls, supply, named, rfl⟩ := h
  have start : (Journal.start tokens).database.Identified ∧
      ∀ n, (Journal.start tokens).tokens.token n ≠ "" := ⟨rfl, supply⟩
  refine (Journal.run_induction
    (motive := fun journal => journal.database.Identified ∧ ∀ n, journal.tokens.token n ≠ "")
    Named ?_ ?_ named start).1
  · rintro journal document named ⟨identified, supply⟩
    have saves := save_saves journal.database journal.tokens named
    refine ⟨identified_save identified supply saves, fun n => ?_⟩
    have same : (journal.save document).tokens.token = journal.tokens.token := saves.supply_eq
    rw [same]
    exact supply n
  · rintro journal id rev ⟨identified, supply⟩
    have deletes := delete_deletes journal.database journal.tokens id rev
    refine ⟨identified_delete identified deletes, fun n => ?_⟩
    have same : (journal.delete id rev).tokens.token = journal.tokens.token := deletes.supply_eq
    rw [same]
    exact supply n

end Database

end DocMapper
