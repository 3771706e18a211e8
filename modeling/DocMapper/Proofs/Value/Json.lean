import DocMapper.Proofs.Value.Table
import Mathlib.Data.List.Perm.Subperm

/-!
# JSON values and their equality

A JSON value is null, a truth value, a number, a text, an array or an object.  An
array is a list or a tuple; an object is a map whose keys are different texts.
Equality is an equivalence on such values, although it compares objects by
looking every entry of one up in the other.
-/

namespace DocMapper.Value

def isText : Value → Bool
  | .str _ => true
  | _ => false

mutual

def isJson : Value → Bool
  | .null | .bool _ | .int _ | .float _ | .str _ => true
  | .list items | .tuple items => allJson items
  | .map entries | .readOnly entries => jsonEntries entries
  | _ => false
termination_by structural x => x

def allJson : List Value → Bool
  | [] => true
  | v :: vs => isJson v && allJson vs
termination_by structural x => x

def jsonEntries : List (Value × Value) → Bool
  | [] => true
  | (k, v) :: rest =>
      isText k && rest.all (fun e => !k.sameKey e.1) && isJson v && jsonEntries rest
termination_by structural x => x

end

theorem allJson_iff {items : List Value} :
    allJson items = true ↔ ∀ v ∈ items, v.isJson = true := by
  induction items with
  | nil => simp [allJson]
  | cons v vs ih => simp [allJson, ih]

theorem isText_iff {k : Value} : k.isText = true ↔ ∃ s, k = .str s := by
  cases k <;> simp [isText]

theorem jsonEntries_iff {entries : Entries} :
    jsonEntries entries = true ↔
      (∀ e ∈ entries, e.1.isText = true ∧ e.2.isJson = true) ∧ entries.Distinct := by
  induction entries with
  | nil => simp [jsonEntries, Keyed.Distinct]
  | cons e rest ih =>
      obtain ⟨k, v⟩ := e
      simp only [jsonEntries, Bool.and_eq_true, ih, Keyed.Distinct,
        List.pairwise_cons, List.forall_mem_cons, List.all_eq_true,
        Bool.not_eq_true']
      tauto

theorem isJson_of_entries {v : Value} {entries : Entries}
    (h : v.entries? = some entries) : v.isJson = jsonEntries entries := by
  cases v <;> simp [entries?] at h <;> subst h <;> rfl

theorem sizeOf_lt_of_mem_entries {entries : Entries} {e : Value × Value}
    (h : e ∈ entries) : sizeOf e.2 < sizeOf entries := by
  have := List.sizeOf_lt_of_mem h
  obtain ⟨k, v⟩ := e
  simp only [Prod.mk.sizeOf_spec] at this ⊢
  omega

/-- Induction over JSON values, with one case for numbers and truth values and one
for both kinds of maps. -/
theorem json_induction {motive : (v : Value) → v.isJson = true → Prop}
    (null : ∀ h, motive .null h)
    (number : ∀ v q h, v.quantity? = some q → motive v h)
    (text : ∀ s h, motive (.str s) h)
    (list : ∀ items h, (∀ v ∈ items, ∀ hv, motive v hv) → motive (.list items) h)
    (tuple : ∀ items h, (∀ v ∈ items, ∀ hv, motive v hv) → motive (.tuple items) h)
    (object : ∀ v entries h, v.entries? = some entries →
      (∀ e ∈ entries, ∀ he, motive e.2 he) → motive v h) :
    ∀ (v : Value) (h : v.isJson = true), motive v h
  | .null, h => null h
  | .bool _, h => number _ _ h rfl
  | .int _, h => number _ _ h rfl
  | .float _, h => number _ _ h rfl
  | .str s, h => text s h
  | .list items, h => list items h fun v _hv hj =>
      json_induction null number text list tuple object v hj
  | .tuple items, h => tuple items h fun v _hv hj =>
      json_induction null number text list tuple object v hj
  | .map entries, h => object _ entries h rfl fun e he hj =>
      have := sizeOf_lt_of_mem_entries he
      json_induction null number text list tuple object e.2 hj
  | .readOnly entries, h => object _ entries h rfl fun e he hj =>
      have := sizeOf_lt_of_mem_entries he
      json_induction null number text list tuple object e.2 hj

/-! ## Equality, form by form -/

theorem against_of_json {b : Value} (hb : b.isJson = true) (test : Value → Bool) :
    against false b test = test b := by
  cases b <;> simp [against, isViewRef, isJson] at hb ⊢

theorem same_null {b : Value} (hb : b.isJson = true) :
    same .null b = true ↔ b = .null := by
  rw [same, agree, against_of_json hb]
  exact isNull_iff

theorem same_number {a b : Value} {q : Quantity} (ha : a.quantity? = some q)
    (hb : b.isJson = true) : same a b = true ↔ b.quantity? = some q := by
  cases a <;> simp [quantity?] at ha <;> subst ha <;>
    simp [same, agree, against_of_json hb]

theorem same_text {b : Value} (s : String) (hb : b.isJson = true) :
    same (.str s) b = true ↔ b = .str s := by
  rw [same, agree, against_of_json hb]
  cases b <;> simp [eq_comm (a := s)]

theorem same_list {xs : List Value} {b : Value} (hb : b.isJson = true) :
    same (.list xs) b = true ↔ ∃ ys, b = .list ys ∧ agreeItems false xs ys = true := by
  rw [same, agree, against_of_json hb]
  cases b <;> simp

theorem same_tuple {xs : List Value} {b : Value} (hb : b.isJson = true) :
    same (.tuple xs) b = true ↔ ∃ ys, b = .tuple ys ∧ agreeItems false xs ys = true := by
  rw [same, agree, against_of_json hb]
  cases b <;> simp

theorem same_object {a b : Value} {xs : Entries} (ha : a.entries? = some xs)
    (hb : b.isJson = true) :
    same a b = true ↔ ∃ ys, b.entries? = some ys ∧ xs.length = ys.length ∧
      agreeEntries false xs ys = true := by
  cases a <;> simp [entries?] at ha <;> subst ha <;>
    rw [same, agree, against_of_json hb] <;> cases b <;> simp [entries?]

theorem forall₂_imp_of_mem {α β : Type} {R S : α → β → Prop} {xs : List α} {ys : List β}
    (step : ∀ x ∈ xs, ∀ y ∈ ys, R x y → S x y) (h : List.Forall₂ R xs ys) :
    List.Forall₂ S xs ys := by
  obtain ⟨length, pairs⟩ := List.forall₂_iff_zip.1 h
  refine List.forall₂_iff_zip.2 ⟨length, fun {x y} pair => ?_⟩
  obtain ⟨hx, hy⟩ := List.of_mem_zip pair
  exact step x hx y hy (pairs pair)

theorem agreeItems_iff {xs ys : List Value} :
    agreeItems false xs ys = true ↔ List.Forall₂ (fun x y => same x y = true) xs ys := by
  induction xs generalizing ys with
  | nil => cases ys <;> simp [agreeItems]
  | cons x xs ih => cases ys <;> simp [agreeItems, ih, same]

theorem find?_text_iff {ys : Entries} (texts : ∀ y ∈ ys, y.1.isText = true)
    (distinct : ys.Distinct) {s : String} {y : Value × Value} :
    List.find? (fun y => (Value.str s).sameKey y.1) ys = some y ↔
      y ∈ ys ∧ y.1 = .str s := by
  have isKey : ∀ z ∈ ys, (Value.str s).sameKey z.1 = true ↔ z.1 = .str s := by
    intro z hz
    obtain ⟨t, ht⟩ := isText_iff.1 (texts z hz)
    rw [ht, sameKey_str, beq_iff_eq, Value.str.injEq]
    exact eq_comm
  constructor
  · intro h
    have mem := List.mem_of_find?_eq_some h
    have same := List.find?_some h
    exact ⟨mem, (isKey y mem).1 same⟩
  · rintro ⟨mem, hkey⟩
    have found : (List.find? (fun y => (Value.str s).sameKey y.1) ys).isSome :=
      List.find?_isSome.2 ⟨y, mem, (isKey y mem).2 hkey⟩
    obtain ⟨z, hz⟩ := Option.isSome_iff_exists.1 found
    have zmem := List.mem_of_find?_eq_some hz
    have zkey : z.1 = .str s := (isKey z zmem).1 (by simpa using List.find?_some hz)
    have hv : ys.find? (.str s) = some y.2 := distinct.find?_of_mem (by rwa [← hkey])
    have hw : ys.find? (.str s) = some z.2 := distinct.find?_of_mem (by rwa [← zkey])
    have heq : z = y :=
      Prod.ext (zkey.trans hkey.symm) (Option.some.inj (hw.symm.trans hv))
    rw [hz, heq]

theorem agreeEntries_texts_iff {xs ys : Entries} (hx : ∀ x ∈ xs, x.1.isText = true)
    (hy : ∀ y ∈ ys, y.1.isText = true) (distinct : ys.Distinct) :
    agreeEntries false xs ys = true ↔
      ∀ e ∈ xs, ∃ w, (e.1, w) ∈ ys ∧ same e.2 w = true := by
  induction xs with
  | nil => simp [agreeEntries]
  | cons e rest ih =>
      obtain ⟨k, v⟩ := e
      obtain ⟨s, rfl⟩ := isText_iff.1 (hx _ List.mem_cons_self)
      rw [agreeEntries, Bool.and_eq_true, ih fun x mem => hx x (List.mem_cons_of_mem _ mem),
        List.forall_mem_cons]
      refine and_congr_left fun _ => ?_
      have look : ∀ y, List.find? (fun y => agree true (.str s) y.1) ys = some y ↔
          y ∈ ys ∧ y.1 = .str s := fun y => find?_text_iff hy distinct
      cases hfind : List.find? (fun y => agree true (.str s) y.1) ys with
      | none =>
          simp only [Bool.false_eq_true, false_iff, not_exists, not_and]
          intro w hw
          rw [(look (.str s, w)).2 ⟨hw, rfl⟩] at hfind
          cases hfind
      | some y =>
          obtain ⟨mem, hkey⟩ := (look y).1 hfind
          constructor
          · intro hsame
            exact ⟨y.2, by rwa [← hkey], hsame⟩
          · rintro ⟨w, hw, hsame⟩
            rw [(look (.str s, w)).2 ⟨hw, rfl⟩] at hfind
            cases hfind
            exact hsame

theorem agreeEntries_iff {xs ys : Entries} (hx : jsonEntries xs = true)
    (hy : jsonEntries ys = true) :
    agreeEntries false xs ys = true ↔
      ∀ e ∈ xs, ∃ w, (e.1, w) ∈ ys ∧ same e.2 w = true := by
  obtain ⟨forms, distinct⟩ := jsonEntries_iff.1 hy
  exact agreeEntries_texts_iff (fun x mem => ((jsonEntries_iff.1 hx).1 x mem).1)
    (fun y mem => (forms y mem).1) distinct

theorem same_refl {v : Value} (hv : v.isJson = true) : same v v = true := by
  induction v, hv using json_induction with
  | null h => exact (same_null h).2 rfl
  | number v q h hq => exact (same_number hq h).2 hq
  | text s h => exact (same_text s h).2 rfl
  | list items h ih =>
      refine (same_list h).2 ⟨items, rfl, agreeItems_iff.2 ?_⟩
      exact List.forall₂_same.2 fun v hv => ih v hv (allJson_iff.1 h v hv)
  | tuple items h ih =>
      refine (same_tuple h).2 ⟨items, rfl, agreeItems_iff.2 ?_⟩
      exact List.forall₂_same.2 fun v hv => ih v hv (allJson_iff.1 h v hv)
  | object v entries h he ih =>
      have hj : jsonEntries entries = true := by rwa [← isJson_of_entries he]
      refine (same_object he h).2 ⟨entries, he, rfl, (agreeEntries_iff hj hj).2 ?_⟩
      intro e hmem
      exact ⟨e.2, hmem, ih e hmem ((jsonEntries_iff.1 hj).1 e hmem).2⟩

theorem agreeItems_symm {xs ys : List Value}
    (ih : ∀ x ∈ xs, ∀ y, y.isJson = true → same x y = true → same y x = true)
    (hy : allJson ys = true) (h : agreeItems false xs ys = true) :
    agreeItems false ys xs = true := by
  rw [agreeItems_iff] at h ⊢
  induction h with
  | nil => exact .nil
  | @cons x y xs ys hxy _ step =>
      rw [allJson, Bool.and_eq_true] at hy
      exact .cons (ih x List.mem_cons_self y hy.1 hxy)
        (step (fun x hx => ih x (List.mem_cons_of_mem _ hx)) hy.2)

theorem distinct_iff_nodup {entries : Entries} (texts : ∀ e ∈ entries, e.1.isText = true) :
    entries.Distinct ↔ (entries.map Prod.fst).Nodup := by
  rw [Keyed.Distinct, List.Nodup, List.pairwise_map]
  refine List.Pairwise.iff_of_mem fun {a b} ha hb => ?_
  obtain ⟨s, hs⟩ := isText_iff.1 (texts a ha)
  obtain ⟨t, ht⟩ := isText_iff.1 (texts b hb)
  rw [hs, ht, sameKey_str]
  simp

theorem keys_perm {xs ys : Entries} (hx : jsonEntries xs = true)
    (hlen : xs.length = ys.length)
    (h : ∀ e ∈ xs, ∃ w, (e.1, w) ∈ ys ∧ same e.2 w = true) :
    (xs.map Prod.fst).Perm (ys.map Prod.fst) := by
  have nodup : (xs.map Prod.fst).Nodup := by
    obtain ⟨forms, distinct⟩ := jsonEntries_iff.1 hx
    exact (distinct_iff_nodup fun e mem => (forms e mem).1).1 distinct
  have subset : xs.map Prod.fst ⊆ ys.map Prod.fst := by
    intro k hk
    obtain ⟨e, he, rfl⟩ := List.mem_map.1 hk
    obtain ⟨w, hw, -⟩ := h e he
    exact List.mem_map.2 ⟨_, hw, rfl⟩
  exact (List.subperm_of_subset nodup subset).perm_of_length_le (by simp [hlen])

theorem agreeEntries_symm {xs ys : Entries} (hx : jsonEntries xs = true)
    (hy : jsonEntries ys = true) (hlen : xs.length = ys.length)
    (ih : ∀ e ∈ xs, ∀ w, w.isJson = true → same e.2 w = true → same w e.2 = true)
    (h : agreeEntries false xs ys = true) : agreeEntries false ys xs = true := by
  rw [agreeEntries_iff hx hy] at h
  obtain ⟨forms, distinct⟩ := jsonEntries_iff.1 hy
  refine (agreeEntries_iff hy hx).2 ?_
  rintro ⟨k, w⟩ hw
  have hk : k ∈ xs.map Prod.fst :=
    (keys_perm hx hlen h).mem_iff.2 (List.mem_map.2 ⟨_, hw, rfl⟩)
  obtain ⟨⟨k, v⟩, hv, rfl⟩ := List.mem_map.1 hk
  obtain ⟨w', hw', hvw⟩ := h _ hv
  obtain ⟨s, rfl⟩ := isText_iff.1 (forms _ hw).1
  have heq : w' = w := Option.some.inj
    ((distinct.find?_of_mem hw').symm.trans (distinct.find?_of_mem hw))
  subst heq
  exact ⟨v, hv, ih _ hv _ (forms _ hw).2 hvw⟩

theorem same_symm {a b : Value} (ha : a.isJson = true) (hb : b.isJson = true)
    (h : same a b = true) : same b a = true := by
  induction a, ha using json_induction generalizing b with
  | null ha =>
      rw [same_null hb] at h
      rw [h, same_null ha]
  | number a q ha hq =>
      rw [same_number hq hb] at h
      rwa [same_number h ha]
  | text s ha =>
      rw [same_text s hb] at h
      rw [h, same_text s ha]
  | list xs ha ih =>
      obtain ⟨ys, rfl, h⟩ := (same_list hb).1 h
      refine (same_list ha).2 ⟨xs, rfl, agreeItems_symm ?_ hb h⟩
      exact fun x hx y hy => ih x hx (allJson_iff.1 ha x hx) hy
  | tuple xs ha ih =>
      obtain ⟨ys, rfl, h⟩ := (same_tuple hb).1 h
      refine (same_tuple ha).2 ⟨xs, rfl, agreeItems_symm ?_ hb h⟩
      exact fun x hx y hy => ih x hx (allJson_iff.1 ha x hx) hy
  | object a xs ha hxs ih =>
      obtain ⟨ys, hys, hlen, h⟩ := (same_object hxs hb).1 h
      have hx : jsonEntries xs = true := by rwa [← isJson_of_entries hxs]
      have hy : jsonEntries ys = true := by rwa [← isJson_of_entries hys]
      refine (same_object hys ha).2 ⟨xs, hxs, hlen.symm, agreeEntries_symm hx hy hlen ?_ h⟩
      exact fun e he w hw => ih e he ((jsonEntries_iff.1 hx).1 e he).2 hw

theorem agreeItems_trans {xs ys zs : List Value}
    (ih : ∀ x ∈ xs, ∀ y z, y.isJson = true → z.isJson = true →
      same x y = true → same y z = true → same x z = true)
    (hy : allJson ys = true) (hz : allJson zs = true)
    (hxy : agreeItems false xs ys = true) (hyz : agreeItems false ys zs = true) :
    agreeItems false xs zs = true := by
  rw [agreeItems_iff] at hxy hyz ⊢
  induction hxy generalizing zs with
  | nil =>
      cases hyz
      exact .nil
  | @cons x y xs ys hxy _ step =>
      cases hyz with
      | @cons _ z _ zs hyz rest =>
          rw [allJson, Bool.and_eq_true] at hy hz
          exact .cons (ih x List.mem_cons_self y z hy.1 hz.1 hxy hyz)
            (step (fun x hx => ih x (List.mem_cons_of_mem _ hx)) hy.2 hz.2 rest)

theorem agreeEntries_trans {xs ys zs : Entries} (hx : jsonEntries xs = true)
    (hy : jsonEntries ys = true) (hz : jsonEntries zs = true)
    (ih : ∀ e ∈ xs, ∀ w u, w.isJson = true → u.isJson = true →
      same e.2 w = true → same w u = true → same e.2 u = true)
    (hxy : agreeEntries false xs ys = true) (hyz : agreeEntries false ys zs = true) :
    agreeEntries false xs zs = true := by
  rw [agreeEntries_iff hx hy] at hxy
  rw [agreeEntries_iff hy hz] at hyz
  refine (agreeEntries_iff hx hz).2 fun e he => ?_
  obtain ⟨w, hw, hew⟩ := hxy e he
  obtain ⟨u, hu, hwu⟩ := hyz _ hw
  exact ⟨u, hu, ih e he w u ((jsonEntries_iff.1 hy).1 _ hw).2
    ((jsonEntries_iff.1 hz).1 _ hu).2 hew hwu⟩

theorem same_trans {a b c : Value} (ha : a.isJson = true) (hb : b.isJson = true)
    (hc : c.isJson = true) (hab : same a b = true) (hbc : same b c = true) :
    same a c = true := by
  induction a, ha using json_induction generalizing b c with
  | null ha =>
      rw [same_null hb] at hab
      rwa [hab] at hbc
  | number a q ha hq =>
      rw [same_number hq hb] at hab
      rw [same_number hab hc] at hbc
      rwa [same_number hq hc]
  | text s ha =>
      rw [same_text s hb] at hab
      rwa [hab] at hbc
  | list xs ha ih =>
      obtain ⟨ys, rfl, hab⟩ := (same_list hb).1 hab
      obtain ⟨zs, rfl, hbc⟩ := (same_list hc).1 hbc
      refine (same_list hc).2 ⟨zs, rfl, agreeItems_trans ?_ hb hc hab hbc⟩
      exact fun x hx y z hy hz => ih x hx (allJson_iff.1 ha x hx) hy hz
  | tuple xs ha ih =>
      obtain ⟨ys, rfl, hab⟩ := (same_tuple hb).1 hab
      obtain ⟨zs, rfl, hbc⟩ := (same_tuple hc).1 hbc
      refine (same_tuple hc).2 ⟨zs, rfl, agreeItems_trans ?_ hb hc hab hbc⟩
      exact fun x hx y z hy hz => ih x hx (allJson_iff.1 ha x hx) hy hz
  | object a xs ha hxs ih =>
      obtain ⟨ys, hys, hxy, hab⟩ := (same_object hxs hb).1 hab
      obtain ⟨zs, hzs, hyz, hbc⟩ := (same_object hys hc).1 hbc
      have hx : jsonEntries xs = true := by rwa [← isJson_of_entries hxs]
      have hy : jsonEntries ys = true := by rwa [← isJson_of_entries hys]
      have hz : jsonEntries zs = true := by rwa [← isJson_of_entries hzs]
      refine (same_object hxs hc).2
        ⟨zs, hzs, hxy.trans hyz, agreeEntries_trans hx hy hz ?_ hab hbc⟩
      exact fun e he w u hw hu => ih e he ((jsonEntries_iff.1 hx).1 e he).2 hw hu

theorem differs_json {a b : Value} (ha : a.isJson = true) (hb : b.isJson = true) :
    a.differs b = !same a b := by
  have notRef : ∀ v : Value, v.isJson = true → v.isViewRef = false := by
    intro v hv
    cases v <;> simp [isJson] at hv <;> rfl
  simp [differs, notRef a ha, notRef b hb]

theorem isAmong_iff {v : Value} {items : List Value} :
    v.isAmong items = true ↔ ∃ item ∈ items, same item v = true := by
  simp [isAmong]

end DocMapper.Value
