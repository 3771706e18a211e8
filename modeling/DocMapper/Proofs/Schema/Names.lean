import DocMapper.Proofs.Outcome
import DocMapper.Proofs.Value.Json
import DocMapper.Schema.Entity

/-!
# Names of declared fields

A declaration is refused if one of its fields has a name that cannot be a key, or the name of
another field.  The fields of an accepted one, with the reserved fields of an entity, are
found under their names.
-/

namespace DocMapper

namespace Value

/-- The values can be keys, and no two of them count as one. -/
structure AreNames (names : List Value) : Prop where
  hashable : ∀ name ∈ names, name.hashable = true
  apart : names.Pairwise fun a b => a.sameKey b = false

theorem distinctKeys_pairwise (vs : List Value) :
    (distinctKeys vs).Pairwise fun a b => a.sameKey b = false := by
  refine List.foldlRecOn (motive := List.Pairwise fun a b : Value => a.sameKey b = false)
    vs _ .nil fun seen apart v _ => ?_
  split
  next => exact apart
  next fresh =>
    refine List.pairwise_append.2 ⟨apart, List.pairwise_singleton .., fun s mem w last => ?_⟩
    rw [List.mem_singleton.1 last]
    exact Bool.eq_false_iff.2 fun same => fresh (List.any_eq_true.2 ⟨s, mem, same⟩)

theorem distinctKeys_sublist (vs : List Value) : (distinctKeys vs).Sublist vs := by
  have run : ∀ seen : List Value, (vs.foldl (fun seen v =>
      if seen.any (sameKey · v) then seen else seen ++ [v]) seen).Sublist (seen ++ vs) := by
    induction vs with
    | nil => exact fun seen => seen.sublist_append_left []
    | cons v vs ih =>
        intro seen
        rw [List.foldl_cons]
        split
        next => exact (ih seen).trans (List.Sublist.append_left (List.sublist_cons_self v vs) seen)
        next => exact List.append_cons seen v vs ▸ ih (seen ++ [v])
  exact run []

theorem distinctKeys_of_apart {vs : List Value}
    (apart : vs.Pairwise fun a b => a.sameKey b = false) : distinctKeys vs = vs := by
  have run : ∀ seen : List Value, (seen ++ vs).Pairwise (fun a b => a.sameKey b = false) →
      vs.foldl (fun seen v => if seen.any (sameKey · v) then seen else seen ++ [v]) seen =
        seen ++ vs := by
    clear apart
    induction vs with
    | nil => exact fun seen _ => (List.append_nil seen).symm
    | cons v vs ih =>
        intro seen apart
        have fresh : ¬ seen.any (sameKey · v) = true := by
          rw [List.any_eq_true]
          rintro ⟨s, mem, same⟩
          have other := (List.pairwise_append.1 apart).2.2 s mem v (.head vs)
          rw [same] at other
          cases other
        rw [List.foldl_cons, if_neg fresh, ih (seen ++ [v]) (List.append_cons seen v vs ▸ apart),
          ← List.append_cons]
  exact run [] apart

theorem AreNames.nodup {names : List Value} (areNames : AreNames names) : names.Nodup := by
  refine areNames.apart.imp_of_mem fun {a b} mem _ apart same => ?_
  rw [← same, sameKey_self (areNames.hashable a mem)] at apart
  cases apart

theorem areNames_of_texts {names : List Value} (texts : ∀ name ∈ names, name.isText = true)
    (nodup : names.Nodup) : AreNames names := by
  refine ⟨fun name mem => ?_, nodup.imp_of_mem fun {a b} ha hb other => ?_⟩
  · obtain ⟨s, rfl⟩ := isText_iff.1 (texts name mem)
    rfl
  · obtain ⟨s, rfl⟩ := isText_iff.1 (texts a ha)
    obtain ⟨t, rfl⟩ := isText_iff.1 (texts b hb)
    rw [sameKey_str, beq_eq_false_iff_ne]
    exact fun same => other (congrArg Value.str same)

end Value

open Value

theorem refuseIf_ok {condition : Bool} {error : DeclarationError}
    (passes : refuseIf condition error = .ok ()) : condition = false := by
  unfold refuseIf at passes
  split at passes
  next => cases passes
  next refused => exact Bool.eq_false_iff.2 refused

theorem refuseIf_of_false {condition : Bool} {error : DeclarationError}
    (fine : condition = false) : refuseIf condition error = .ok () := by
  rw [fine]
  rfl

theorem refuseRepeated_ok {names : List Value} {error : DeclarationError}
    (passes : refuseRepeated names error = .ok ()) : AreNames names := by
  unfold refuseRepeated at passes
  cases keys : names.all Value.hashable with
  | false =>
      rw [keys] at passes
      cases passes
  | true =>
      rw [keys] at passes
      have length := bne_eq_false_iff_eq.1 (refuseIf_ok passes)
      refine ⟨List.all_eq_true.1 keys, ?_⟩
      rw [← (distinctKeys_sublist names).eq_of_length length]
      exact distinctKeys_pairwise names

theorem refuseRepeated_of_names {names : List Value} {error : DeclarationError}
    (areNames : AreNames names) : refuseRepeated names error = .ok () := by
  unfold refuseRepeated
  rw [List.all_eq_true.2 areNames.hashable, distinctKeys_of_apart areNames.apart]
  exact refuseIf_of_false (bne_self_eq_false _)

theorem Embedded.make_names {name : Value} {fields : List Field} {recordType : Option RecordType}
    {embedded : Embedded} (made : Embedded.make name fields recordType = .ok embedded) :
    AreNames embedded.fieldNames := by
  obtain ⟨_, -, made⟩ := Outcome.bind_eq_ok.1 made
  obtain ⟨_, names, made⟩ := Outcome.bind_eq_ok.1 made
  cases made
  exact refuseRepeated_ok names

theorem Value.isAmong_of_sameKey {s : String} {names : List Value} {name : Value}
    (mem : name ∈ names) (named : (Value.str s).sameKey name = true) :
    (Value.str s).isAmong names = true := by
  rw [isAmong_iff]
  refine ⟨name, mem, ?_⟩
  rw [sameKey_text_left] at named
  cases name with
  | viewRef => rfl
  | str t =>
      cases named
      exact same_refl rfl
  | _ => cases named

theorem Value.AreNames.reserve (s : String) (more : List Value) {names : List Value}
    (areNames : AreNames (more ++ names))
    (other : ∀ name ∈ more, (Value.str s).sameKey name = false) :
    AreNames ((if (Value.str s).isAmong names then [] else [.str s]) ++ (more ++ names)) := by
  split
  next => exact areNames
  next fresh =>
    refine ⟨List.forall_mem_cons.2 ⟨rfl, areNames.hashable⟩,
      List.pairwise_cons.2 ⟨fun name (mem : name ∈ more ++ names) => ?_, areNames.apart⟩⟩
    rcases List.mem_append.1 mem with mem | mem
    · exact other name mem
    · exact Bool.eq_false_iff.2 fun named => fresh (isAmong_of_sameKey mem named)

theorem Entity.make_names {name source : Value} {fields : List Field} {designs : List Design}
    {description : Value} {entity : Entity}
    (made : Entity.make name source fields designs description = .ok entity) :
    AreNames entity.fieldNames := by
  obtain ⟨_, -, made⟩ := Outcome.bind_eq_ok.1 made
  obtain ⟨_, -, made⟩ := Outcome.bind_eq_ok.1 made
  obtain ⟨_, names, made⟩ := Outcome.bind_eq_ok.1 made
  obtain ⟨_, -, made⟩ := Outcome.bind_eq_ok.1 made
  cases made
  have withRev := AreNames.reserve revField [] (refuseRepeated_ok names) nofun
  have withId := AreNames.reserve idField _ withRev fun name mem => by
    split at mem
    next => cases mem
    next =>
      rw [List.mem_singleton.1 mem]
      decide
  unfold Entity.fieldNames Entity.missingReserved
  rw [List.map_append, List.map_append, List.append_assoc, apply_ite (List.map Field.name),
    apply_ite (List.map Field.name)]
  exact withId

end DocMapper
