import DocMapper.Proofs.Value.Collation

/-!
# Equal values and places in view order

Equality and view order tell values apart in different ways.  Equality takes a truth
value for a number and an object for any other with the same entries, and keeps lists
from tuples; view order does the opposite in each case.  On values of one form the two
agree, and two values that are equal and stand at one place have one form.
-/

namespace DocMapper

namespace Value

def samePlace (a b : Value) : Bool := a.collation.order? b.collation == some .eq

mutual

/-- The values have one form: the same kinds stand at the same places, and objects list
the same keys in the same order. -/
def alike : Value → Value → Bool
  | .list xs, b =>
      match b with
      | .list ys => alikeItems xs ys
      | _ => false
  | .tuple xs, b =>
      match b with
      | .tuple ys => alikeItems xs ys
      | _ => false
  | .map xs, b | .readOnly xs, b =>
      match b.entries? with
      | some ys => alikeEntries xs ys
      | none => false
  | a, b => a.collation.rank == b.collation.rank
termination_by structural x => x

def alikeItems : List Value → List Value → Bool
  | [], [] => true
  | x :: xs, y :: ys => alike x y && alikeItems xs ys
  | _, _ => false
termination_by structural x => x

def alikeEntries : List (Value × Value) → List (Value × Value) → Bool
  | [], [] => true
  | (k, x) :: xs, (l, y) :: ys => k.same l && alike x y && alikeEntries xs ys
  | _, _ => false
termination_by structural x => x

end

theorem alikeItems_iff {xs ys : List Value} :
    alikeItems xs ys = true ↔ List.Forall₂ (fun x y => alike x y = true) xs ys := by
  induction xs generalizing ys with
  | nil => cases ys <;> simp [alikeItems]
  | cons x xs ih => cases ys <;> simp [alikeItems, ih]

theorem alikeEntries_iff {xs ys : Entries} :
    alikeEntries xs ys = true ↔
      List.Forall₂ (fun e f => e.1.same f.1 = true ∧ alike e.2 f.2 = true) xs ys := by
  induction xs generalizing ys with
  | nil => cases ys <;> simp [alikeEntries]
  | cons e xs ih =>
      obtain ⟨k, x⟩ := e
      cases ys with
      | nil => simp [alikeEntries]
      | cons f ys => simp [alikeEntries, ih]

theorem samePlace_items {xs ys : List Value} :
    Collation.orderItems? (collationItems xs) (collationItems ys) = some .eq ↔
      List.Forall₂ (fun x y => samePlace x y = true) xs ys := by
  induction xs generalizing ys with
  | nil => cases ys <;> simp [collationItems, Collation.orderItems?]
  | cons x xs ih =>
      cases ys with
      | nil => simp [collationItems, Collation.orderItems?]
      | cons y ys =>
          rw [collationItems, collationItems, Collation.orderItems?, List.forall₂_cons, ← ih,
            samePlace, beq_iff_eq]
          cases x.collation.order? y.collation with
          | none => simp
          | some order => cases order <;> simp

theorem samePlace_entries {xs ys : Entries} :
    Collation.orderEntries? (collationEntries xs) (collationEntries ys) = some .eq ↔
      List.Forall₂ (fun e f => e.1.same f.1 = true ∧ samePlace e.2 f.2 = true) xs ys := by
  induction xs generalizing ys with
  | nil => cases ys <;> simp [collationEntries, Collation.orderEntries?]
  | cons e xs ih =>
      obtain ⟨k, x⟩ := e
      cases ys with
      | nil => simp [collationEntries, Collation.orderEntries?]
      | cons f ys =>
          obtain ⟨l, y⟩ := f
          rw [collationEntries, collationEntries, Collation.orderEntries?, List.forall₂_cons,
            ← ih, samePlace, beq_iff_eq]
          cases k.same l with
          | false =>
              -- Keys that differ are before or after one another, if they have an order.
              cases k.less? l with
              | none => simp
              | some less => cases less <;> simp
          | true =>
              simp only [if_true, true_and]
              cases x.collation.order? y.collation with
              | none => simp
              | some order => cases order <;> simp

theorem rank_of_samePlace {a b : Value} (h : samePlace a b = true) :
    a.collation.rank = b.collation.rank := by
  by_contra apart
  rw [samePlace, Collation.order?_of_rank apart, beq_iff_eq, Option.some.injEq,
    Nat.compare_eq_eq] at h
  exact apart h

theorem orderQuantities_eq {x y : Quantity} :
    Collation.orderQuantities x y = .eq ↔ x = y := by
  rw [Collation.orderQuantities]
  constructor
  · intro h
    split at h
    · cases h
    · split at h
      · cases h
      · rcases Quantity.lt_or_eq_or_gt x y with less | equal | greater
        · contradiction
        · exact equal
        · contradiction
  · rintro rfl
    simp [Quantity.lt_irrefl]

theorem samePlace_number {a b : Value} {x y : Quantity}
    (ha : a.collation.quantity? = some x) (hb : b.collation.quantity? = some y) :
    samePlace a b = true ↔ x = y := by
  have order : a.collation.order? b.collation = some (Collation.orderQuantities x y) := by
    revert ha hb
    cases a.collation <;> cases b.collation <;> intro ha hb <;> cases ha <;> cases hb <;> rfl
  rw [samePlace, order, beq_iff_eq, Option.some.injEq, orderQuantities_eq]

theorem samePlace_text (s t : String) : samePlace (.str s) (.str t) = true ↔ s = t := by
  have order : (Value.str s).collation.order? (Value.str t).collation =
      some (Collation.orderTexts s t) := rfl
  rw [samePlace, order, beq_iff_eq, Option.some.injEq, Collation.orderTexts]
  obtain less | rfl | greater := lt_trichotomy s t
  · simp [less, less.ne]
  · simp
  · simp [greater.not_gt, greater.ne']

/-! ## Equality and place, on values of one form -/

theorem agreeEntries_aligned {xs ys : Entries} (hx : jsonEntries xs = true)
    (hy : jsonEntries ys = true) (keys : List.Forall₂ (fun e f => e.1.same f.1 = true) xs ys) :
    agreeEntries false xs ys = true ↔
      List.Forall₂ (fun e f => e.2.same f.2 = true) xs ys := by
  obtain ⟨length, aligned⟩ := List.forall₂_iff_zip.1 keys
  obtain ⟨texts, -⟩ := jsonEntries_iff.1 hx
  obtain ⟨texts', distinct⟩ := jsonEntries_iff.1 hy
  have equal : ∀ e f, (e, f) ∈ xs.zip ys → e.1 = f.1 ∧ e ∈ xs ∧ f ∈ ys := by
    intro e f pair
    obtain ⟨he, hf⟩ := List.of_mem_zip pair
    obtain ⟨s, hs⟩ := isText_iff.1 (texts e he).1
    obtain ⟨t, ht⟩ := isText_iff.1 (texts' f hf).1
    have h := aligned pair
    rw [hs, ht, same_str, beq_iff_eq] at h
    exact ⟨by rw [hs, ht, h], he, hf⟩
  rw [agreeEntries_iff hx hy, List.forall₂_iff_zip]
  constructor
  · refine fun h => ⟨length, fun {e f} pair => ?_⟩
    obtain ⟨key, he, hf⟩ := equal e f pair
    obtain ⟨w, hw, same⟩ := h e he
    -- The value found under the key of an entry is the one that stands opposite.
    obtain ⟨t, ht⟩ := isText_iff.1 (texts' f hf).1
    rw [key, ht] at hw
    have hf' : (Value.str t, f.2) ∈ ys := ht ▸ hf
    have found : w = f.2 := Option.some.inj
      ((distinct.find?_of_mem hw).symm.trans (distinct.find?_of_mem hf'))
    rwa [found] at same
  · rintro ⟨-, h⟩ e he
    obtain ⟨i, hi, rfl⟩ := List.mem_iff_getElem.1 he
    have hi' : i < ys.length := length ▸ hi
    have pair : (xs[i], ys[i]) ∈ xs.zip ys :=
      List.mem_iff_getElem.2 ⟨i, by simpa [length] using hi, by simp⟩
    obtain ⟨key, -, hf⟩ := equal _ _ pair
    exact ⟨_, key ▸ hf, h pair⟩

theorem scalar_of_rank {v : Value} (hv : v.isJson = true) :
    match v.collation.rank with
    | 0 => v = .null
    | 1 => v = .bool false
    | 2 => v = .bool true
    | 3 => ∃ q, v.quantity? = some q ∧ v.collation.quantity? = some q
    | 4 => ∃ s, v = .str s
    | _ => True := by
  cases v with
  | bool b => cases b <;> rfl
  | null => rfl
  | int i => exact ⟨_, rfl, rfl⟩
  | float x => exact ⟨_, rfl, rfl⟩
  | str s => exact ⟨s, rfl⟩
  | list | tuple | map | readOnly => trivial
  | _ => cases hv

theorem same_iff_samePlace_number {a b : Value} {q : Quantity} (hq : a.quantity? = some q)
    (hb : b.isJson = true) (rank : a.collation.rank = b.collation.rank) :
    a.same b = true ↔ a.samePlace b = true := by
  have scalar := scalar_of_rank hb
  rw [← rank] at scalar
  rw [same_number hq hb]
  have number : ∀ x, a.collation.quantity? = some x → a.quantity? = some x →
      (∃ y, b.quantity? = some y ∧ b.collation.quantity? = some y) →
      (b.quantity? = some q ↔ a.samePlace b = true) := by
    rintro x hx hx' ⟨y, hy, hy'⟩
    rw [samePlace_number hx hy', hy, Option.some.injEq, eq_comm,
      ← Option.some.inj (hq.symm.trans hx')]
  cases a with
  | bool c => cases c <;> cases scalar <;> exact iff_of_true hq rfl
  | int i => exact number _ rfl rfl scalar
  | float x => exact number _ rfl rfl scalar
  | _ => cases hq

theorem alike_number {a b : Value} {q : Quantity} (hq : a.quantity? = some q) :
    a.alike b = true ↔ a.collation.rank = b.collation.rank := by
  cases a <;> cases hq <;> exact beq_iff_eq

theorem alike_object {a b : Value} {xs : Entries} (hxs : a.entries? = some xs) :
    a.alike b = true ↔ ∃ ys, b.entries? = some ys ∧ alikeEntries xs ys = true := by
  have form : a.alike b =
      match b.entries? with
      | some ys => alikeEntries xs ys
      | none => false := by
    cases a <;> cases hxs <;> rfl
  rw [form]
  cases b.entries? <;> simp

theorem samePlace_object {a b : Value} {xs ys : Entries} (hxs : a.entries? = some xs)
    (hys : b.entries? = some ys) : samePlace a b = true ↔
      List.Forall₂ (fun e f => e.1.same f.1 = true ∧ samePlace e.2 f.2 = true) xs ys := by
  have order : a.collation.order? b.collation =
      Collation.orderEntries? (collationEntries xs) (collationEntries ys) := by
    cases a <;> cases hxs <;> cases b <;> cases hys <;> rfl
  rw [samePlace, order, beq_iff_eq, samePlace_entries]

theorem samePlace_lists {xs ys : List Value} : samePlace (.list xs) (.list ys) = true ↔
    List.Forall₂ (fun x y => samePlace x y = true) xs ys := by
  rw [← samePlace_items, samePlace, beq_iff_eq]
  rfl

theorem samePlace_tuples {xs ys : List Value} : samePlace (.tuple xs) (.tuple ys) = true ↔
    List.Forall₂ (fun x y => samePlace x y = true) xs ys := samePlace_lists

theorem same_items_iff {xs ys : List Value} (hx : allJson xs = true) (hy : allJson ys = true)
    (form : alikeItems xs ys = true)
    (ih : ∀ x ∈ xs, x.isJson = true → ∀ {y : Value}, y.isJson = true → x.alike y = true →
      (x.same y = true ↔ x.samePlace y = true)) :
    agreeItems false xs ys = true ↔ List.Forall₂ (fun x y => samePlace x y = true) xs ys := by
  rw [allJson_iff] at hx hy
  have each : List.Forall₂ (fun x y => x.same y = true ↔ x.samePlace y = true) xs ys :=
    forall₂_imp_of_mem (fun x mem y mem' => ih x mem (hx x mem) (hy y mem'))
      (alikeItems_iff.1 form)
  rw [agreeItems_iff]
  exact ⟨each.mp fun _ _ h => h.1, each.mp fun _ _ h => h.2⟩

/-- On values of one form, equality and view order tell the same ones apart. -/
theorem same_iff_samePlace {a b : Value} (ha : a.isJson = true) (hb : b.isJson = true)
    (form : a.alike b = true) : a.same b = true ↔ a.samePlace b = true := by
  induction a, ha using json_induction generalizing b with
  | null ha =>
      have rank : Value.null.collation.rank = b.collation.rank := beq_iff_eq.1 form
      have scalar := scalar_of_rank hb
      rw [← rank] at scalar
      cases scalar
      exact iff_of_true rfl rfl
  | number a q ha hq =>
      exact same_iff_samePlace_number hq hb ((alike_number hq).1 form)
  | text s ha =>
      have rank : (Value.str s).collation.rank = b.collation.rank := beq_iff_eq.1 form
      have scalar := scalar_of_rank hb
      rw [← rank] at scalar
      obtain ⟨t, rfl⟩ := scalar
      rw [samePlace_text, same_str, beq_iff_eq]
  | list xs ha ih =>
      cases b with
      | list ys =>
          rw [samePlace_lists, ← same_items_iff ha hb form ih]
          exact Iff.rfl
      | _ => cases form
  | tuple xs ha ih =>
      cases b with
      | tuple ys =>
          rw [samePlace_tuples, ← same_items_iff ha hb form ih]
          exact Iff.rfl
      | _ => cases form
  | object a xs ha hxs ih =>
      obtain ⟨ys, hys, aligned⟩ := (alike_object hxs).1 form
      have hx : jsonEntries xs = true := by rwa [← isJson_of_entries hxs]
      have hy : jsonEntries ys = true := by rwa [← isJson_of_entries hys]
      rw [alikeEntries_iff] at aligned
      -- Equal keys stand opposite each other, so that only the values are to be compared.
      have keys := aligned.imp fun _ _ h => h.1
      have each : List.Forall₂ (fun e f : Value × Value => e.1.same f.1 = true ∧
          (e.2.same f.2 = true ↔ e.2.samePlace f.2 = true)) xs ys := by
        refine forall₂_imp_of_mem (fun e he f hf h => ⟨h.1, ?_⟩) aligned
        exact ih e he ((jsonEntries_iff.1 hx).1 e he).2 ((jsonEntries_iff.1 hy).1 f hf).2 h.2
      rw [same_object hxs hb, samePlace_object hxs hys]
      constructor
      · rintro ⟨ys', hys', -, agree⟩
        cases hys.symm.trans hys'
        rw [agreeEntries_aligned hx hy keys] at agree
        exact each.mp (fun _ _ h same => ⟨h.1, h.2.1 same⟩) agree
      · intro place
        refine ⟨ys, hys, aligned.length_eq, (agreeEntries_aligned hx hy keys).2 ?_⟩
        exact each.mp (fun _ _ h place => h.2.2 place.2) place

theorem alikeItems_of_same {xs ys : List Value} (hx : allJson xs = true) (hy : allJson ys = true)
    (same : agreeItems false xs ys = true)
    (place : List.Forall₂ (fun x y => samePlace x y = true) xs ys)
    (ih : ∀ x ∈ xs, x.isJson = true → ∀ {y : Value}, y.isJson = true → x.same y = true →
      x.samePlace y = true → x.alike y = true) : alikeItems xs ys = true := by
  rw [allJson_iff] at hx hy
  have both : List.Forall₂ (fun x y => x.same y = true ∧ x.samePlace y = true) xs ys :=
    (agreeItems_iff.1 same).mp (fun _ _ => And.intro) place
  exact alikeItems_iff.2 (forall₂_imp_of_mem (fun x mem y mem' h =>
    ih x mem (hx x mem) (hy y mem') h.1 h.2) both)

theorem alike_of_same {a b : Value} (ha : a.isJson = true) (hb : b.isJson = true)
    (same : a.same b = true) (place : a.samePlace b = true) : a.alike b = true := by
  induction a, ha using json_induction generalizing b with
  | null ha => exact beq_iff_eq.2 (rank_of_samePlace place)
  | number a q ha hq => exact (alike_number hq).2 (rank_of_samePlace place)
  | text s ha => exact beq_iff_eq.2 (rank_of_samePlace place)
  | list xs ha ih =>
      obtain ⟨ys, rfl, agree⟩ := (same_list hb).1 same
      exact alikeItems_of_same ha hb agree (samePlace_lists.1 place) ih
  | tuple xs ha ih =>
      obtain ⟨ys, rfl, agree⟩ := (same_tuple hb).1 same
      exact alikeItems_of_same ha hb agree (samePlace_tuples.1 place) ih
  | object a xs ha hxs ih =>
      obtain ⟨ys, hys, -, agree⟩ := (same_object hxs hb).1 same
      have hx : jsonEntries xs = true := by rwa [← isJson_of_entries hxs]
      have hy : jsonEntries ys = true := by rwa [← isJson_of_entries hys]
      rw [samePlace_object hxs hys] at place
      rw [agreeEntries_aligned hx hy (place.imp fun _ _ h => h.1)] at agree
      have both : List.Forall₂ (fun e f : Value × Value => e.1.same f.1 = true ∧
          e.2.same f.2 = true ∧ e.2.samePlace f.2 = true) xs ys :=
        agree.mp (fun _ _ same place => ⟨place.1, same, place.2⟩) place
      refine (alike_object hxs).2 ⟨ys, hys, alikeEntries_iff.2 ?_⟩
      refine forall₂_imp_of_mem (fun e he f hf h => ⟨h.1, ?_⟩) both
      exact ih e he ((jsonEntries_iff.1 hx).1 e he).2 ((jsonEntries_iff.1 hy).1 f hf).2
        h.2.1 h.2.2

theorem same_eq_samePlace_iff {a b : Value} (ha : a.isJson = true) (hb : b.isJson = true) :
    a.same b = a.samePlace b ↔
      (a.same b = true ∨ a.samePlace b = true → a.alike b = true) := by
  constructor
  · rintro equal (same | place)
    · exact alike_of_same ha hb same (equal ▸ same)
    · exact alike_of_same ha hb (equal.symm ▸ place) place
  · intro h
    rw [Bool.eq_iff_iff]
    constructor
    · exact fun same => (same_iff_samePlace ha hb (h (.inl same))).1 same
    · exact fun place => (same_iff_samePlace ha hb (h (.inr place))).2 place

end Value

end DocMapper
