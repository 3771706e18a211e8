import DocMapper.Proofs.Value.Trees
import DocMapper.Schema.Entity

/-!
# Declarations and what they export

A declaration exports its attributes, without those that have their usual value.  Two
declarations that export one value differ at most in the order of keys in the defaults of
fields, at whatever depth.
-/

namespace DocMapper

namespace Value

def given (attributes : List (String × Option Value)) : List (String × Value) :=
  attributes.filterMap fun a => a.2.map (a.1, ·)

theorem given_cons (name : String) (v? : Option Value) (rest : List (String × Option Value)) :
    given ((name, v?) :: rest) = (v?.map (name, ·)).toList ++ given rest := by
  cases v? <;> rfl

theorem sublist_given (attributes : List (String × Option Value)) :
    ((given attributes).map Prod.fst).Sublist (attributes.map Prod.fst) := by
  induction attributes with
  | nil => exact .slnil
  | cons a rest ih =>
      obtain ⟨name, _ | v⟩ := a
      · exact ih.cons name
      · exact ih.cons_cons name

theorem lookup_given {attributes : List (String × Option Value)}
    (distinct : (attributes.map Prod.fst).Nodup) (s : String) :
    (given attributes).lookup s = (attributes.lookup s).join := by
  induction attributes with
  | nil => rfl
  | cons a rest ih =>
      obtain ⟨name, v?⟩ := a
      obtain ⟨fresh, distinct⟩ := List.nodup_cons.1 distinct
      rw [given_cons, List.lookup_append, ih distinct, List.lookup_cons]
      cases same : s == name with
      | false => cases v? <;> simp [List.lookup_cons, same]
      | true =>
          have absent : rest.lookup s = none := by
            rw [List.lookup_eq_none_iff]
            intro p mem
            rw [bne_iff_ne, eq_of_beq same]
            rintro rfl
            exact fresh (List.mem_map.2 ⟨p, mem, rfl⟩)
          cases v? <;> simp [List.lookup_cons, same, absent]

theorem plain_fields {fields : List (String × Value)} (each : ∀ f ∈ fields, f.2.Plain)
    (distinct : (fields.map Prod.fst).Nodup) : (ofFields fields).Plain := by
  refine plain_map.2 ⟨fun e mem => ?_, ?_⟩
  · obtain ⟨f, field, rfl⟩ := List.mem_map.1 mem
    exact ⟨rfl, each f field⟩
  · rw [Keyed.Distinct, List.pairwise_map]
    refine (List.pairwise_map.1 distinct).imp fun {a b} apart => ?_
    rw [sameKey_str, beq_eq_false_iff_ne]
    exact apart

theorem plain_given {attributes : List (String × Option Value)}
    (each : ∀ a ∈ attributes, ∀ v ∈ a.2, v.Plain)
    (distinct : (attributes.map Prod.fst).Nodup) : (ofFields (given attributes)).Plain := by
  refine plain_fields (fun f mem => ?_) (distinct.sublist (sublist_given attributes))
  obtain ⟨a, listed, found⟩ := List.mem_filterMap.1 mem
  obtain ⟨v, value, rfl⟩ := Option.map_eq_some_iff.1 found
  exact each a listed v value

theorem shuffled_fields {xs ys : List (String × Value)} (h : (ofFields xs).Shuffled (ofFields ys))
    (s : String) : Option.Rel Shuffled (xs.lookup s) (ys.lookup s) := by
  have found := shuffled_map h s
  rwa [find?_named, find?_named] at found

theorem shuffled_given {xs ys : List (String × Option Value)} (hx : (xs.map Prod.fst).Nodup)
    (hy : (ys.map Prod.fst).Nodup)
    (h : (ofFields (given xs)).Shuffled (ofFields (given ys))) (s : String) :
    Option.Rel Shuffled (xs.lookup s).join (ys.lookup s).join := by
  have found := shuffled_fields h s
  rwa [lookup_given hx, lookup_given hy] at found

end Value

mutual

/-- The names and descriptions are texts, the defaults are plain, and no embedded record has a
type of its own. -/
def Field.Plain : Field → Prop
  | ⟨name, _, _, default, embed, _, description⟩ =>
      name.isText = true ∧ default.Plain ∧ description.isText = true ∧
        match embed with
        | some embedded => embedded.Plain
        | none => True
termination_by structural x => x

def Embedded.Plain : Embedded → Prop
  | ⟨name, fields, recordType⟩ =>
      name.isText = true ∧ recordType = none ∧ Field.AllPlain fields
termination_by structural x => x

def Field.AllPlain : List Field → Prop
  | [] => True
  | field :: rest => field.Plain ∧ Field.AllPlain rest
termination_by structural x => x

end

def View.Plain (view : View) : Prop :=
  view.name.isText = true ∧ ∀ type ∈ view.keyTypes, type.isText = true

def Design.Plain (design : Design) : Prop :=
  design.name.isText = true ∧ ∀ view ∈ design.views, view.Plain

structure Entity.Plain (entity : Entity) : Prop where
  name : entity.name.isText = true
  source : entity.source.isText = true
  fields : Field.AllPlain entity.fields
  designs : ∀ design ∈ entity.designs, design.Plain
  description : entity.description.isText = true

mutual

inductive Field.Shuffled : Field → Field → Prop
  | mk {name description : Value} {kind : Kind} {required readAfterWrites : Bool}
      {default default' : Value} {embed embed' : Option Embedded}
      (defaults : default.Shuffled default') (embeds : Option.Rel Embedded.Shuffled embed embed') :
      Field.Shuffled ⟨name, kind, required, default, embed, readAfterWrites, description⟩
        ⟨name, kind, required, default', embed', readAfterWrites, description⟩

inductive Embedded.Shuffled : Embedded → Embedded → Prop
  | mk {name : Value} {recordType : Option RecordType} {fields fields' : List Field}
      (each : List.Forall₂ Field.Shuffled fields fields') :
      Embedded.Shuffled ⟨name, fields, recordType⟩ ⟨name, fields', recordType⟩

end

structure Entity.Shuffled (a b : Entity) : Prop where
  name : a.name = b.name
  source : a.source = b.source
  fields : List.Forall₂ Field.Shuffled a.fields b.fields
  designs : a.designs = b.designs
  description : a.description = b.description

def Field.attributes (field : Field) : List (String × Option Value) :=
  [("name", some field.name), ("kind", some (.str field.kind.name)),
    ("required", if field.required then some (.bool true) else none),
    ("default", if field.default.isNull then none else some field.default),
    ("embed", field.embed.map Embedded.toValue),
    ("read_after_writes", if field.readAfterWrites then some (.bool true) else none),
    ("description", if field.description.truthy then some field.description else none)]

theorem Field.toValue_eq (field : Field) :
    field.toValue = .ofFields (Value.given field.attributes) := by
  obtain ⟨name, kind, required, default, embed, readAfterWrites, description⟩ := field
  rw [Field.toValue.eq_def, Field.attributes]
  simp only [Value.given_cons, apply_ite (Option.map _), apply_ite Option.toList]
  cases embed <;> simp [Value.given]

theorem Field.nodup_attributes (field : Field) : (field.attributes.map Prod.fst).Nodup := by
  change ["name", "kind", "required", "default", "embed", "read_after_writes",
    "description"].Nodup
  decide

theorem Value.plain_text {v : Value} (text : v.isText = true) : v.Plain := by
  obtain ⟨s, rfl⟩ := isText_iff.1 text
  exact trivial

mutual

theorem Field.plain_toValue : ∀ field : Field, field.Plain → field.toValue.Plain
  | ⟨name, kind, required, default, embed, readAfterWrites, description⟩, plain => by
      rw [Field.Plain.eq_def] at plain
      obtain ⟨nameText, defaultPlain, descriptionText, embedPlain⟩ := plain
      rw [Field.toValue_eq]
      refine Value.plain_given ?_ (Field.nodup_attributes _)
      simp only [Field.attributes, List.forall_mem_cons, List.not_mem_nil, false_imp_iff,
        implies_true, and_true, Option.mem_def, Option.ite_none_left_eq_some,
        Option.ite_none_right_eq_some, Option.some.injEq, forall_eq']
      refine ⟨Value.plain_text nameText, trivial, ?_, ?_, ?_, ?_, ?_⟩
      · rintro _ ⟨-, rfl⟩
        exact trivial
      · rintro _ ⟨-, rfl⟩
        exact defaultPlain
      · cases embed with
        | none => nofun
        | some embedded =>
            rintro _ ⟨⟩
            exact Embedded.plain_toValue embedded embedPlain
      · rintro _ ⟨-, rfl⟩
        exact trivial
      · rintro _ ⟨-, rfl⟩
        exact Value.plain_text descriptionText
termination_by structural x => x

theorem Embedded.plain_toValue : ∀ embedded : Embedded, embedded.Plain → embedded.toValue.Plain
  | ⟨name, fields, recordType⟩, plain => by
      rw [Embedded.Plain.eq_def] at plain
      obtain ⟨nameText, -, fieldsPlain⟩ := plain
      rw [Embedded.toValue.eq_def]
      refine Value.plain_fields ?_ (by simp)
      simp only [List.forall_mem_cons, List.not_mem_nil, false_imp_iff, implies_true, and_true]
      exact ⟨Value.plain_text nameText,
        Value.plain_list.2 (Field.plain_toValues fields fieldsPlain)⟩
termination_by structural x => x

theorem Field.plain_toValues : ∀ fields : List Field, Field.AllPlain fields →
    ∀ v ∈ Field.toValues fields, v.Plain
  | [], _ => nofun
  | field :: rest, plain => by
      rw [Field.AllPlain.eq_def] at plain
      rw [Field.toValues.eq_def]
      exact List.forall_mem_cons.2
        ⟨Field.plain_toValue field plain.1, Field.plain_toValues rest plain.2⟩
termination_by structural x => x

end

theorem View.plain_toValue {view : View} (plain : view.Plain) : view.toValue.Plain := by
  refine Value.plain_fields ?_ (by simp)
  simp only [List.forall_mem_cons, List.not_mem_nil, false_imp_iff, implies_true, and_true]
  exact ⟨Value.plain_text plain.1,
    Value.plain_list.2 fun type mem => Value.plain_text (plain.2 type mem)⟩

theorem Design.plain_toValue {design : Design} (plain : design.Plain) : design.toValue.Plain := by
  refine Value.plain_fields ?_ (by simp)
  simp only [List.forall_mem_cons, List.not_mem_nil, false_imp_iff, implies_true, and_true]
  refine ⟨Value.plain_text plain.1, Value.plain_list.2 fun v mem => ?_⟩
  obtain ⟨view, listed, rfl⟩ := List.mem_map.1 mem
  exact View.plain_toValue (plain.2 view listed)

theorem Entity.plain_toValue {entity : Entity} (plain : entity.Plain) : entity.toValue.Plain := by
  refine Value.plain_fields ?_ (by simp)
  simp only [List.forall_mem_cons, List.not_mem_nil, false_imp_iff, implies_true, and_true]
  refine ⟨Value.plain_text plain.name, Value.plain_text plain.source,
    Value.plain_list.2 (Field.plain_toValues _ plain.fields), Value.plain_list.2 fun v mem => ?_,
    Value.plain_text plain.description⟩
  obtain ⟨design, listed, rfl⟩ := List.mem_map.1 mem
  exact Design.plain_toValue (plain.designs design listed)

/-! ## What is exported determines the declaration -/

theorem Kind.name_injective : ∀ a b : Kind, a.name = b.name → a = b := by
  intro a b
  cases a <;> cases b <;> decide

section Omitted

variable {a b : Value} {p q : Bool}

theorem flag_of_given (h : Option.Rel Value.Shuffled (if p then some a else none)
    (if q then some b else none)) : p = q := by
  cases p <;> cases q <;> first | rfl | cases h

theorem default_of_given (h : Option.Rel Value.Shuffled (if a.isNull then none else some a)
    (if b.isNull then none else some b)) : a.Shuffled b := by
  split_ifs at h with first second second
  · rw [Value.isNull_iff.1 first, Value.isNull_iff.1 second]
    exact .refl .null
  · cases h
  · cases h
  · exact Option.rel_some_some.1 h

theorem description_of_given (ha : a.isText = true) (hb : b.isText = true)
    (h : Option.Rel Value.Shuffled (if a.truthy then some a else none)
      (if b.truthy then some b else none)) : a = b := by
  split_ifs at h with first second second
  · exact Value.eq_of_shuffled_text ha (Option.rel_some_some.1 h)
  · cases h
  · cases h
  · obtain ⟨s, rfl⟩ := Value.isText_iff.1 ha
    obtain ⟨t, rfl⟩ := Value.isText_iff.1 hb
    simp only [Value.truthy, Bool.not_eq_true, Bool.not_eq_false',
      String.isEmpty_iff] at first second
    rw [first, second]

end Omitted

mutual

theorem Field.shuffled_of_toValue : ∀ a b : Field, a.Plain → b.Plain →
    a.toValue.Shuffled b.toValue → a.Shuffled b
  | ⟨name, kind, required, default, embed, readAfterWrites, description⟩, b, plain, plain', h => by
      obtain ⟨name', kind', required', default', embed', readAfterWrites', description'⟩ := b
      rw [Field.Plain.eq_def] at plain plain'
      obtain ⟨nameText, -, descriptionText, embedPlain⟩ := plain
      obtain ⟨-, -, descriptionText', embedPlain'⟩ := plain'
      rw [Field.toValue_eq, Field.toValue_eq] at h
      have lookups := Value.shuffled_given (Field.nodup_attributes _) (Field.nodup_attributes _) h
      obtain rfl : name = name' :=
        Value.eq_of_shuffled_text nameText (Option.rel_some_some.1 (lookups "name"))
      obtain rfl : kind = kind' := Kind.name_injective _ _ <| Value.str.inj <|
        Value.eq_of_shuffled_text rfl (Option.rel_some_some.1 (lookups "kind"))
      obtain rfl : required = required' := flag_of_given (lookups "required")
      obtain rfl : readAfterWrites = readAfterWrites' :=
        flag_of_given (lookups "read_after_writes")
      obtain rfl : description = description' :=
        description_of_given descriptionText descriptionText' (lookups "description")
      refine .mk (default_of_given (lookups "default")) ?_
      have embeds : Option.Rel Value.Shuffled
        (embed.map Embedded.toValue) (embed'.map Embedded.toValue) := lookups "embed"
      cases embed with
      | none =>
          cases embed' with
          | none => exact .none
          | some _ => cases embeds
      | some embedded =>
          cases embed' with
          | none => cases embeds
          | some embedded' =>
              exact .some (Embedded.shuffled_of_toValue embedded embedded' embedPlain embedPlain'
                (Option.rel_some_some.1 embeds))
termination_by structural x => x

theorem Embedded.shuffled_of_toValue : ∀ a b : Embedded, a.Plain → b.Plain →
    a.toValue.Shuffled b.toValue → a.Shuffled b
  | ⟨name, fields, recordType⟩, b, plain, plain', h => by
      obtain ⟨name', fields', recordType'⟩ := b
      rw [Embedded.Plain.eq_def] at plain plain'
      obtain ⟨nameText, rfl, fieldsPlain⟩ := plain
      obtain ⟨-, rfl, fieldsPlain'⟩ := plain'
      rw [Embedded.toValue.eq_def, Embedded.toValue.eq_def] at h
      have lookups := Value.shuffled_fields h
      obtain rfl : name = name' :=
        Value.eq_of_shuffled_text nameText (Option.rel_some_some.1 (lookups "name"))
      exact .mk (Field.shuffled_of_toValues fields fields' fieldsPlain fieldsPlain'
        (Value.shuffled_list (Option.rel_some_some.1 (lookups "fields"))))
termination_by structural x => x

theorem Field.shuffled_of_toValues : ∀ xs ys : List Field, Field.AllPlain xs → Field.AllPlain ys →
    List.Forall₂ Value.Shuffled (Field.toValues xs) (Field.toValues ys) →
    List.Forall₂ Field.Shuffled xs ys
  | [], [], _, _, _ => .nil
  | [], _ :: _, _, _, h => nomatch h
  | _ :: _, [], _, _, h => nomatch h
  | x :: xs, y :: ys, plain, plain', h => by
      rw [Field.AllPlain.eq_def] at plain plain'
      rw [Field.toValues.eq_def, Field.toValues.eq_def] at h
      obtain ⟨first, rest⟩ := List.forall₂_cons.1 h
      exact .cons (Field.shuffled_of_toValue x y plain.1 plain'.1 first)
        (Field.shuffled_of_toValues xs ys plain.2 plain'.2 rest)
termination_by structural x => x

end

theorem list_of_toValues {α : Type} {f : α → Value} {fine : α → Prop}
    (determined : ∀ a b, fine a → fine b → (f a).Shuffled (f b) → a = b)
    {xs ys : List α} (hx : ∀ x ∈ xs, fine x) (hy : ∀ y ∈ ys, fine y)
    (h : (Value.list (xs.map f)).Shuffled (.list (ys.map f))) : xs = ys := by
  have each := Value.shuffled_list h
  rw [List.forall₂_map_left_iff, List.forall₂_map_right_iff] at each
  rw [← List.forall₂_eq_eq_eq]
  exact Value.forall₂_imp_of_mem (fun x hx' y hy' => determined x y (hx x hx') (hy y hy')) each

theorem View.eq_of_toValue {a b : View} (ha : a.Plain) (hb : b.Plain)
    (h : a.toValue.Shuffled b.toValue) : a = b := by
  have lookups := Value.shuffled_fields h
  have name := Value.eq_of_shuffled_text ha.1 (Option.rel_some_some.1 (lookups "name"))
  have types : (Value.list a.keyTypes).Shuffled (.list b.keyTypes) :=
    Option.rel_some_some.1 (lookups "key_types")
  rw [← List.map_id a.keyTypes, ← List.map_id b.keyTypes] at types
  have keyTypes := list_of_toValues (fun _ _ text _ => Value.eq_of_shuffled_text text)
    ha.2 hb.2 types
  obtain ⟨_, _⟩ := a
  cases name
  cases keyTypes
  rfl

theorem Design.eq_of_toValue {a b : Design} (ha : a.Plain) (hb : b.Plain)
    (h : a.toValue.Shuffled b.toValue) : a = b := by
  have lookups := Value.shuffled_fields h
  have name := Value.eq_of_shuffled_text ha.1 (Option.rel_some_some.1 (lookups "name"))
  have views := list_of_toValues (fun _ _ => View.eq_of_toValue) ha.2 hb.2
    (Option.rel_some_some.1 (lookups "views"))
  obtain ⟨_, _⟩ := a
  cases name
  cases views
  rfl

theorem Entity.shuffled_of_toValue {a b : Entity} (ha : a.Plain) (hb : b.Plain)
    (h : a.toValue.Shuffled b.toValue) : a.Shuffled b := by
  have lookups := Value.shuffled_fields h
  exact {
    name := Value.eq_of_shuffled_text ha.name (Option.rel_some_some.1 (lookups "name"))
    source := Value.eq_of_shuffled_text ha.source (Option.rel_some_some.1 (lookups "source"))
    fields := Field.shuffled_of_toValues _ _ ha.fields hb.fields
      (Value.shuffled_list (Option.rel_some_some.1 (lookups "fields")))
    designs := list_of_toValues (fun _ _ => Design.eq_of_toValue) ha.designs hb.designs
      (Option.rel_some_some.1 (lookups "designs"))
    description :=
      Value.eq_of_shuffled_text ha.description (Option.rel_some_some.1 (lookups "description")) }

end DocMapper
