import DocMapper.Proofs.Write.Steps

/-!
# Prepared documents

The document of a new record is one that the store can file: a record that can be
copied is encoded as a document that can be copied, and the identifier of the record
is kept.
-/

namespace DocMapper

namespace Value

theorem copyableEntries_iff {entries : Entries} :
    copyableEntries entries = true ↔
      ∀ e ∈ entries, e.1.copyable = true ∧ e.2.copyable = true := by
  induction entries with
  | nil => simp [copyableEntries]
  | cons e rest ih =>
      obtain ⟨k, v⟩ := e
      simp [copyableEntries, ih]

theorem copyable_set {entries : Entries} {key value : Value}
    (h : copyableEntries entries = true) (hkey : key.copyable = true)
    (hvalue : value.copyable = true) : copyableEntries (entries.set key value) = true := by
  rw [copyableEntries_iff] at h ⊢
  intro e mem
  obtain mem | ⟨rfl, same | ⟨-, old, mem⟩⟩ := Keyed.mem_set mem
  · exact h e mem
  · exact ⟨same ▸ hkey, hvalue⟩
  · exact ⟨(h _ mem).1, hvalue⟩

theorem copyable_update {table changes : Entries} (h : copyableEntries table = true)
    (hchanges : copyableEntries changes = true) :
    copyableEntries (Keyed.update table changes) = true := by
  induction changes generalizing table with
  | nil => exact h
  | cons p rest ih =>
      obtain ⟨k, v⟩ := p
      simp only [copyableEntries, Bool.and_eq_true] at hchanges
      exact ih (copyable_set h hchanges.1.1 hchanges.1.2) hchanges.2

theorem copyable_ofPairs {pairs : List (Value × Value)} (h : copyableEntries pairs = true) :
    copyableEntries (Keyed.ofPairs pairs) = true :=
  copyable_update rfl h

theorem copyable_fields {record : Value} {fields : List (String × Value)}
    (h : record.copyable = true) (parts : record.fields? = some fields) :
    copyableFields fields = true := by
  cases record with
  | record type fields =>
      cases parts
      exact h
  | eq | isIn | atLeast | atMost | compare | all =>
      cases parts
      simpa [copyable, copyableFields, Bool.and_assoc] using h
  | _ => cases parts

mutual

theorem copyable_of_hashable : ∀ v : Value, v.hashable = true → v.copyable = true
  | .tuple items, h | .all items, h => by
      rw [hashable] at h
      rw [copyable]
      exact copyableAll_of_hashable items h
  | .viewRef name, h => copyable_of_hashable name h
  | .eq view value, h | .atLeast view value, h | .atMost view value, h => by
      simp only [hashable, Bool.and_eq_true] at h
      simp [copyable, copyable_of_hashable view h.1, copyable_of_hashable value h.2]
  | .isIn view values, h => by
      simp only [hashable, Bool.and_eq_true] at h
      simp [copyable, copyable_of_hashable view h.1, copyableAll_of_hashable values h.2]
  | .compare view op value, h => by
      simp only [hashable, Bool.and_eq_true] at h
      simp [copyable, copyable_of_hashable view h.1.1, copyable_of_hashable op h.1.2,
        copyable_of_hashable value h.2]
  | .list _, h | .map _, h | .readOnly _, h | .record .., h => nomatch h
  | .null, _ | .bool _, _ | .int _, _ | .float _, _ | .str _, _ | .bytes _, _
  | .recordType _, _ => rfl

theorem copyableAll_of_hashable : ∀ vs : List Value, hashableAll vs = true →
    copyableAll vs = true
  | [], _ => rfl
  | v :: vs, h => by
      simp only [hashableAll, Bool.and_eq_true] at h
      simp [copyableAll, copyable_of_hashable v h.1, copyableAll_of_hashable vs h.2]

end

end Value

namespace Value

mutual

/-- Every view reference in the value names its view by a value that can be copied.
References among the keys do not count: they are written as texts. -/
def refersCopyably : Value → Bool
  | .viewRef name => name.copyable
  | .list items | .tuple items | .all items => allReferCopyably items
  | .map entries | .readOnly entries => entriesReferCopyably entries
  | .record _ fields => fieldsReferCopyably fields
  | .eq view value | .atLeast view value | .atMost view value =>
      refersCopyably view && refersCopyably value
  | .isIn view values => refersCopyably view && allReferCopyably values
  | .compare view op value => refersCopyably view && refersCopyably op && refersCopyably value
  | _ => true
termination_by structural x => x

def allReferCopyably : List Value → Bool
  | [] => true
  | v :: vs => refersCopyably v && allReferCopyably vs
termination_by structural x => x

def entriesReferCopyably : List (Value × Value) → Bool
  | [] => true
  | (_, v) :: rest => refersCopyably v && entriesReferCopyably rest
termination_by structural x => x

def fieldsReferCopyably : List (String × Value) → Bool
  | [] => true
  | (_, v) :: rest => refersCopyably v && fieldsReferCopyably rest
termination_by structural x => x

end

mutual

theorem refersCopyably_of_copyable : ∀ v : Value, v.copyable = true → v.refersCopyably = true
  | .list items, h | .tuple items, h | .all items, h => by
      rw [copyable] at h
      rw [refersCopyably]
      exact allReferCopyably_of_copyable items h
  | .map entries, h => by
      rw [copyable] at h
      rw [refersCopyably]
      exact entriesReferCopyably_of_copyable entries h
  | .record _ fields, h => by
      rw [copyable] at h
      rw [refersCopyably]
      exact fieldsReferCopyably_of_copyable fields h
  | .eq view value, h | .atLeast view value, h | .atMost view value, h => by
      simp only [copyable, Bool.and_eq_true] at h
      simp [refersCopyably, refersCopyably_of_copyable view h.1,
        refersCopyably_of_copyable value h.2]
  | .isIn view values, h => by
      simp only [copyable, Bool.and_eq_true] at h
      simp [refersCopyably, refersCopyably_of_copyable view h.1,
        allReferCopyably_of_copyable values h.2]
  | .compare view op value, h => by
      simp only [copyable, Bool.and_eq_true] at h
      simp [refersCopyably, refersCopyably_of_copyable view h.1.1,
        refersCopyably_of_copyable op h.1.2, refersCopyably_of_copyable value h.2]
  | .viewRef _, h => h
  | .readOnly _, h => nomatch h
  | .null, _ | .bool _, _ | .int _, _ | .float _, _ | .str _, _ | .bytes _, _
  | .recordType _, _ => rfl

theorem allReferCopyably_of_copyable : ∀ vs : List Value, copyableAll vs = true →
    allReferCopyably vs = true
  | [], _ => rfl
  | v :: vs, h => by
      simp only [copyableAll, Bool.and_eq_true] at h
      simp [allReferCopyably, refersCopyably_of_copyable v h.1,
        allReferCopyably_of_copyable vs h.2]

theorem entriesReferCopyably_of_copyable : ∀ entries : List (Value × Value),
    copyableEntries entries = true → entriesReferCopyably entries = true
  | [], _ => rfl
  | (_, v) :: rest, h => by
      simp only [copyableEntries, Bool.and_eq_true] at h
      simp [entriesReferCopyably, refersCopyably_of_copyable v h.1.2,
        entriesReferCopyably_of_copyable rest h.2]

theorem fieldsReferCopyably_of_copyable : ∀ fields : List (String × Value),
    copyableFields fields = true → fieldsReferCopyably fields = true
  | [], _ => rfl
  | (_, v) :: rest, h => by
      simp only [copyableFields, Bool.and_eq_true] at h
      simp [fieldsReferCopyably, refersCopyably_of_copyable v h.1,
        fieldsReferCopyably_of_copyable rest h.2]

end

end Value

mutual

theorem copyable_encodeValue : ∀ v : Value, v.refersCopyably = true →
    (encodeValue v).copyable = true
  | .list items, h | .tuple items, h => by
      rw [encodeValue, Value.copyable]
      exact copyable_encodeValues items h
  | .map entries, h | .readOnly entries, h => by
      rw [encodeValue, Value.copyable]
      exact Value.copyable_ofPairs (copyable_encodeEntries entries h)
  | .record type fields, h => by
      rw [encodeValue, Value.copyable]
      exact copyable_encodeNamed fields h
  | .eq view value, h | .atLeast view value, h | .atMost view value, h => by
      simp only [Value.refersCopyably, Bool.and_eq_true] at h
      simp [encodeValue, Value.ofFields, Value.copyable, Value.copyableEntries,
        copyable_encodeValue view h.1, copyable_encodeValue value h.2]
  | .isIn view values, h => by
      simp only [Value.refersCopyably, Bool.and_eq_true] at h
      simp [encodeValue, Value.ofFields, Value.copyable, Value.copyableEntries,
        copyable_encodeValue view h.1, copyable_encodeValues values h.2]
  | .compare view op value, h => by
      simp only [Value.refersCopyably, Bool.and_eq_true] at h
      simp [encodeValue, Value.ofFields, Value.copyable, Value.copyableEntries,
        copyable_encodeValue view h.1.1, copyable_encodeValue op h.1.2,
        copyable_encodeValue value h.2]
  | .all parts, h => by
      simp [encodeValue, Value.ofFields, Value.copyable, Value.copyableEntries,
        copyable_encodeValues parts h]
  | .null, _ | .bool _, _ | .int _, _ | .float _, _ | .str _, _ | .bytes _, _
  | .recordType _, _ => rfl
  | .viewRef _, h => h

theorem copyable_encodeValues : ∀ items : List Value, Value.allReferCopyably items = true →
    Value.copyableAll (encodeValues items) = true
  | [], _ => rfl
  | v :: vs, h => by
      simp only [Value.allReferCopyably, Bool.and_eq_true] at h
      simp [encodeValues, Value.copyableAll, copyable_encodeValue v h.1,
        copyable_encodeValues vs h.2]

theorem copyable_encodeEntries : ∀ entries : List (Value × Value),
    Value.entriesReferCopyably entries = true →
      Value.copyableEntries (encodeEntries entries) = true
  | [], _ => rfl
  | (k, v) :: rest, h => by
      simp only [Value.entriesReferCopyably, Bool.and_eq_true] at h
      simp [encodeEntries, Value.copyableEntries, Value.copyable, copyable_encodeValue v h.1,
        copyable_encodeEntries rest h.2]

theorem copyable_encodeNamed : ∀ fields : List (String × Value),
    Value.fieldsReferCopyably fields = true → Value.copyableEntries (encodeNamed fields) = true
  | [], _ => rfl
  | (f, v) :: rest, h => by
      simp only [Value.fieldsReferCopyably, Bool.and_eq_true] at h
      simp [encodeNamed, Value.copyableEntries, Value.copyable, copyable_encodeValue v h.1,
        copyable_encodeNamed rest h.2]

end

theorem recordFields_ok {record : Value} {values : Entries}
    (h : recordFields record = .ok values) :
    record = .map values ∨ ∃ fields, record.fields? = some fields ∧
      values = fields.map fun f => (.str f.1, f.2) := by
  unfold recordFields at h
  split at h
  · cases h
    exact .inl rfl
  · split at h
    next fields named =>
      cases h
      exact .inr ⟨fields, named, rfl⟩
    · cases h

theorem copyable_named {fields : List (String × Value)}
    (h : Value.copyableFields fields = true) :
    Value.copyableEntries (fields.map fun f => (.str f.1, f.2)) = true := by
  induction fields with
  | nil => rfl
  | cons f rest ih =>
      obtain ⟨name, v⟩ := f
      simp only [Value.copyableFields, Bool.and_eq_true] at h
      simp [Value.copyableEntries, Value.copyable, h.1, ih h.2]

theorem copyable_encodeRecord {record : Value} {fields : Document}
    (h : record.copyable = true) (encodes : encodeRecord record = .ok fields) :
    Value.copyableEntries fields = true := by
  obtain ⟨values, hvalues, encodes⟩ := Outcome.bind_eq_ok.1 encodes
  cases encodes
  refine Value.copyable_ofPairs (copyable_encodeEntries values
    (Value.entriesReferCopyably_of_copyable values ?_))
  obtain rfl | ⟨named, hnamed, rfl⟩ := recordFields_ok hvalues
  · exact h
  · exact copyable_named (Value.copyable_fields h hnamed)

namespace Write

/-! ## Documents of records -/

/-- The record becomes a document that the store can file: its identifier is a text
or left to the store, and it can be copied. -/
def Fits (entity : Entity) (record : Value) : Prop :=
  ∀ fields, document entity record = .ok fields →
    Named (.map fields) ∧ (Value.map fields).copyable = true

theorem copyable_withoutUnset {fields : Document} (h : Value.copyableEntries fields = true)
    (name : String) : Value.copyableEntries (withoutUnset fields name) = true := by
  unfold withoutUnset
  split
  · rw [Value.copyableEntries_iff] at h ⊢
    exact fun e mem => h e (List.mem_filter.1 mem).1
  · exact h

theorem find?_withoutUnset (fields : Document) (name s : String) :
    (withoutUnset fields name).find? (.str s) =
      (fields.find? (.str s)).filter fun v => !(v.isNull && s == name) := by
  by_cases same : s = name
  · subst same
    unfold withoutUnset
    split
    next unset =>
      rw [Keyed.find?_erase, Value.sameKey_str, beq_self_eq_true, if_pos rfl, unset]
      simp [Option.filter_some, Value.isNull]
    next given =>
      cases found : fields.find? (.str s) with
      | none => rfl
      | some v =>
          have given : v.isNull = false := Bool.eq_false_iff.2 fun unset =>
            given (found.trans (congrArg some (Value.isNull_iff.1 unset)))
          simp [Option.filter_some, given]
  · have other : (s == name) = false := beq_false_of_ne same
    have kept : (withoutUnset fields name).find? (.str s) = fields.find? (.str s) := by
      unfold withoutUnset
      split
      · rw [Keyed.find?_erase, Value.sameKey_str, if_neg]
        rw [beq_iff_eq]
        exact Ne.symm same
      · rfl
    rw [kept, other]
    cases fields.find? (.str s) <;> simp [Option.filter_some]

section Defaults

variable {entity : Entity}

theorem withDefault_ok {fields fields' : Document} {field : Field}
    (h : withDefault fields field = .ok fields') :
    (field.default.isNull = true ∨ fields.has field.name = true) ∧ fields' = fields ∨
      field.default.isNull = false ∧ fields.has field.name = false ∧
      field.default.copyable = true ∧
      fields' = fields.set field.name (encodeValue field.default) := by
  rw [withDefault] at h
  split at h
  next kept =>
    cases h
    exact .inl ⟨Bool.or_eq_true_iff.1 kept, rfl⟩
  next given =>
    obtain ⟨value, copied, h⟩ := Outcome.bind_eq_ok.1 h
    cases h
    rw [Value.copied] at copied
    split at copied
    next copyable =>
      cases copied
      simp only [Bool.or_eq_true, not_or, Bool.not_eq_true] at given
      exact .inr ⟨given.1, given.2, copyable, rfl⟩
    · cases copied

theorem withDefaults_ok {declared : List Field}
    (texts : ∀ field ∈ declared, field.name.isText = true)
    (unset : ∀ field ∈ declared, field.name = .str idField → field.default = .null)
    {fields fields' : Document} (h : declared.foldlM withDefault fields = .ok fields')
    (copyable : Value.copyableEntries fields = true) :
    Value.copyableEntries fields' = true ∧
      fields'.find? (.str idField) = fields.find? (.str idField) := by
  refine Outcome.foldlM_keeps (motive := fun next : Document =>
    Value.copyableEntries next = true ∧ next.find? (.str idField) = fields.find? (.str idField))
    h ⟨copyable, rfl⟩ ?_
  rintro field mem next next' filled ⟨copyable, same⟩
  obtain ⟨-, rfl⟩ | ⟨given, -, hdefault, rfl⟩ := withDefault_ok filled
  · exact ⟨copyable, same⟩
  · obtain ⟨name, hname⟩ := Value.isText_iff.1 (texts field mem)
    refine ⟨Value.copyable_set copyable (by rw [hname]; rfl)
      (copyable_encodeValue _ (Value.refersCopyably_of_copyable _ hdefault)), ?_⟩
    rw [hname, Keyed.find?_set_text, if_neg, same]
    -- The identifier has no default that could be entered.
    rintro rfl
    rw [unset field mem hname] at given
    cases given

theorem fits_of_copyable (texts : Texts entity)
    (unset : ∀ field ∈ entity.fields, field.name = .str idField → field.default = .null)
    {record : Value} (copyable : record.copyable = true)
    (named : ∀ fields, encodeRecord record = .ok fields → Named (.map fields)) :
    Fits entity record := by
  intro fields h
  obtain ⟨-, -, h⟩ := Outcome.bind_eq_ok.1 h
  obtain ⟨encoded, hencoded, h⟩ := Outcome.bind_eq_ok.1 h
  obtain ⟨copyable', same⟩ := withDefaults_ok texts unset h
    (copyable_withoutUnset (copyable_withoutUnset
      (copyable_encodeRecord copyable hencoded) idField) revField)
  refine ⟨fun id hid => ?_, copyable'⟩
  cases hid
  have given := named encoded hencoded _ rfl
  rw [same, find?_withoutUnset, find?_withoutUnset, Option.filter_filter]
  cases found : encoded.find? (.str idField) with
  | none => exact .inl rfl
  | some id =>
      rw [found] at given
      rw [Option.filter_some]
      split
      · exact given
      · exact .inl rfl

end Defaults

end Write

end DocMapper
