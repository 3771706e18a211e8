import DocMapper.Proofs.Value.Order
import DocMapper.Proofs.Value.Parts
import DocMapper.Proofs.Value.Place
import Mathlib.Algebra.Order.Field.Rat
import Mathlib.Order.WithBot
import Mathlib.Tactic.NormNum

/-!
# The order of view keys

Any two JSON values are ordered as view keys, and the order is total.  Values of different
kinds are ordered by their kinds, numbers by what they amount to, and arrays by their first
items that stand apart.
-/

namespace DocMapper

def Double.amount : Double → WithBot (WithTop ℚ)
  | .finite negative mantissa exponent =>
      (((if negative then -1 else 1) * mantissa * 2 ^ exponent / 2 ^ 1074 : ℚ) : WithTop ℚ)
  | .infinite true => ⊥
  | .infinite false => ((⊤ : WithTop ℚ) : WithBot (WithTop ℚ))

def Quantity.amount : Quantity → WithBot (WithTop ℚ)
  | .negInfinity => ⊥
  | .units count => ((count / 2 ^ 1074 : ℚ) : WithTop ℚ)
  | .posInfinity => ((⊤ : WithTop ℚ) : WithBot (WithTop ℚ))

theorem unitsPerOne_cast : (unitsPerOne : ℚ) = 2 ^ 1074 := by
  have units := unitsPerOne_eq
  generalize 1074 = n at units ⊢
  rw [units, Nat.pow_eq, Nat.cast_pow, Nat.cast_two]

theorem Quantity.amount_ofInt (i : Int) : (Quantity.ofInt i).amount = ((i : ℚ) : WithTop ℚ) := by
  have units : (2 : ℚ) ^ 1074 ≠ 0 := pow_ne_zero _ two_ne_zero
  rw [Quantity.ofInt, Quantity.amount, Int.cast_mul, Int.cast_natCast, unitsPerOne_cast,
    mul_div_cancel_right₀ _ units]

theorem Double.amount_quantity (x : Double) : x.quantity.amount = x.amount := by
  rcases x with ⟨negative, mantissa, exponent⟩ | negative
  · cases negative <;> simp [Double.quantity, Quantity.amount, Double.amount]
  · cases negative <;> rfl

theorem Quantity.amount_lt {x y : Quantity} : x.amount < y.amount ↔ x.lt y = true := by
  have units : (0 : ℚ) < 2 ^ 1074 := pow_pos two_pos _
  cases x <;> cases y <;>
    simp [Quantity.amount, Quantity.lt, WithBot.coe_lt_coe, WithTop.coe_lt_coe,
      div_lt_div_iff_of_pos_right units]
  exact WithBot.coe_lt_coe.2 (WithTop.coe_lt_top _)

theorem Quantity.amount_inj {x y : Quantity} : x.amount = y.amount ↔ x = y := by
  refine ⟨fun h => ?_, congrArg _⟩
  rcases Quantity.lt_or_eq_or_gt x y with less | equal | greater
  · exact absurd h (Quantity.amount_lt.2 less).ne
  · exact equal
  · exact absurd h (Quantity.amount_lt.2 greater).ne'

namespace Value

inductive KeyKind where
  | null
  | no
  | yes
  | number
  | text
  | array
  | object
  deriving DecidableEq

def KeyKind.index : KeyKind → Nat
  | .null => 0
  | .no => 1
  | .yes => 2
  | .number => 3
  | .text => 4
  | .array => 5
  | .object => 6

def kind? : Value → Option KeyKind
  | .null => some .null
  | .bool false => some .no
  | .bool true => some .yes
  | .int _ | .float _ => some .number
  | .str _ => some .text
  | .list _ | .tuple _ => some .array
  | .map _ | .readOnly _ => some .object
  | _ => none

/-- What a number amounts to; a truth value is no number. -/
def amount? : Value → Option (WithBot (WithTop ℚ))
  | .int i => some ((i : ℚ) : WithTop ℚ)
  | .float x => some x.amount
  | _ => none

/-! ## Before and after -/

def before (a b : Value) : Bool := a.collation.order? b.collation == some .lt

def notAfter (a b : Value) : Bool := a.before b || a.samePlace b

theorem order?_spelling {a b : Value} (ha : a.isJson = true) (hb : b.isJson = true) :
    a.collation.order? b.collation =
      some (compareOfLessAndEq a.collation.tokens b.collation.tokens) :=
  Collation.order?_tokens (isPlain_collation a ha) (isPlain_collation b hb)

section Spelling

variable {a b : Value} (ha : a.isJson = true) (hb : b.isJson = true)

include ha hb

theorem before_iff : a.before b = true ↔ a.collation.tokens < b.collation.tokens := by
  rw [before, order?_spelling ha hb, beq_iff_eq, Option.some.injEq, compareOfLessAndEq_eq_lt]

theorem samePlace_iff : a.samePlace b = true ↔ a.collation.tokens = b.collation.tokens := by
  rw [samePlace, order?_spelling ha hb, beq_iff_eq, Option.some.injEq,
    compareOfLessAndEq_eq_eq le_refl not_le]

theorem notAfter_iff : a.notAfter b = true ↔ a.collation.tokens ≤ b.collation.tokens := by
  rw [notAfter, Bool.or_eq_true, before_iff ha hb, samePlace_iff ha hb, le_iff_lt_or_eq]

theorem order?_swap :
    ∃ o, a.collation.order? b.collation = some o ∧
      b.collation.order? a.collation = some o.swap := by
  refine ⟨_, order?_spelling ha hb, ?_⟩
  rw [order?_spelling hb ha, Option.some.injEq]
  exact compareOfLessAndEq_eq_swap le_antisymm le_total not_le

end Spelling

theorem kind?_of_json {v : Value} (h : v.isJson = true) : ∃ k, v.kind? = some k := by
  cases v with
  | bool b => cases b <;> exact ⟨_, rfl⟩
  | null | int | float | str | list | tuple | map | readOnly => exact ⟨_, rfl⟩
  | _ => cases h

theorem rank_of_kind? {v : Value} {k : KeyKind} (h : v.kind? = some k) :
    v.collation.rank = k.index := by
  unfold kind? at h
  split at h <;> cases h <;> rfl

theorem before_of_kind {a b : Value} {k l : KeyKind} (ha : a.kind? = some k)
    (hb : b.kind? = some l) (less : k.index < l.index) : a.before b = true := by
  rw [← rank_of_kind? ha, ← rank_of_kind? hb] at less
  rw [before, Collation.order?_of_rank less.ne, Nat.compare_eq_lt.2 less]
  rfl

theorem order?_quantities {a b : Collation} {p q : Quantity} (ha : a.quantity? = some p)
    (hb : b.quantity? = some q) : a.order? b = some (Collation.orderQuantities p q) := by
  cases a <;> cases ha <;> cases b <;> cases hb <;> rfl

theorem quantity_of_amount {v : Value} {x : WithBot (WithTop ℚ)} (h : v.amount? = some x) :
    ∃ p : Quantity, p.amount = x ∧ v.collation.quantity? = some p := by
  cases v with
  | int i => exact ⟨_, (Quantity.amount_ofInt i).trans (Option.some.inj h), rfl⟩
  | float d => exact ⟨_, (Double.amount_quantity d).trans (Option.some.inj h), rfl⟩
  | _ => cases h

theorem order?_amounts {a b : Value} {x y : WithBot (WithTop ℚ)} (ha : a.amount? = some x)
    (hb : b.amount? = some y) :
    (a.before b = true ↔ x < y) ∧ (a.samePlace b = true ↔ x = y) := by
  obtain ⟨p, rfl, hp⟩ := quantity_of_amount ha
  obtain ⟨q, rfl, hq⟩ := quantity_of_amount hb
  rw [before, samePlace, order?_quantities hp hq, beq_iff_eq, beq_iff_eq, Option.some.injEq,
    Option.some.injEq, orderQuantities_eq, Quantity.amount_lt, Quantity.amount_inj,
    Collation.orderQuantities]
  refine ⟨?_, Iff.rfl⟩
  split
  next less => exact iff_of_true rfl less
  next other => split <;> exact iff_of_false (by decide) other

/-- Up to some place the items stand at the same places in view order; there the first
array ends and the second does not, or its item stands before that of the second. -/
def ItemsBefore (xs ys : List Value) : Prop :=
  ∃ common common' rest rest', xs = common ++ rest ∧ ys = common' ++ rest' ∧
    List.Forall₂ (fun x y => x.samePlace y = true) common common' ∧
    (rest = [] ∧ rest' ≠ [] ∨
      ∃ x xs' y ys', rest = x :: xs' ∧ rest' = y :: ys' ∧ x.before y = true)

theorem itemsBefore_nil_left {ys : List Value} : ItemsBefore [] ys ↔ ys ≠ [] := by
  constructor
  · rintro ⟨common, common', rest, rest', ended, rfl, -, ends | ⟨x, xs, y, ys, rfl, -⟩⟩
    · exact List.append_ne_nil_of_right_ne_nil _ ends.2
    · simp at ended
  · exact fun more => ⟨[], [], [], ys, rfl, rfl, .nil, .inl ⟨rfl, more⟩⟩

theorem not_itemsBefore_nil (xs : List Value) : ¬ ItemsBefore xs [] := by
  rintro ⟨common, common', rest, rest', -, ended, -, ends | ⟨x, xs, y, ys, -, rfl, -⟩⟩
  · obtain ⟨-, rfl⟩ := List.append_eq_nil_iff.1 ended.symm
    exact ends.2 rfl
  · simp at ended

theorem itemsBefore_cons {x y : Value} {xs ys : List Value} :
    ItemsBefore (x :: xs) (y :: ys) ↔
      x.before y = true ∨ x.samePlace y = true ∧ ItemsBefore xs ys := by
  constructor
  · rintro ⟨common, common', rest, rest', hx, hy, alike, decided⟩
    cases alike with
    | nil =>
        obtain ⟨rfl, -⟩ | ⟨x', xs', y', ys', rfl, rfl, less⟩ := decided
        · cases hx
        · cases hx
          cases hy
          exact .inl less
    | cons same alike =>
        cases hx
        cases hy
        exact .inr ⟨same, _, _, _, _, rfl, rfl, alike, decided⟩
  · rintro (less | ⟨same, common, common', rest, rest', rfl, rfl, alike, decided⟩)
    · exact ⟨[], [], _, _, rfl, rfl, .nil, .inr ⟨x, xs, y, ys, rfl, rfl, less⟩⟩
    · exact ⟨x :: common, y :: common', rest, rest', rfl, rfl, .cons same alike, decided⟩

theorem orderItems?_before {xs ys : List Value} :
    Collation.orderItems? (collationItems xs) (collationItems ys) = some .lt ↔
      ItemsBefore xs ys := by
  induction xs generalizing ys with
  | nil =>
      rw [itemsBefore_nil_left]
      cases ys <;> simp [collationItems, Collation.orderItems?]
  | cons x xs ih =>
      cases ys with
      | nil =>
          refine iff_of_false ?_ (not_itemsBefore_nil _)
          simp [collationItems, Collation.orderItems?]
      | cons y ys =>
          rw [itemsBefore_cons, ← ih, before, samePlace, collationItems, collationItems,
            Collation.orderItems?]
          cases x.collation.order? y.collation with
          | none => simp
          | some order => cases order <;> simp

theorem before_arrays {a b : Value} {xs ys : List Value} (ha : a.array? = some xs)
    (hb : b.array? = some ys) :
    (a.before b = true ↔ ItemsBefore xs ys) ∧
      (a.samePlace b = true ↔ List.Forall₂ (fun x y => x.samePlace y = true) xs ys) := by
  have collated : a.collation.order? b.collation =
      Collation.orderItems? (collationItems xs) (collationItems ys) := by
    cases a <;> cases ha <;> cases b <;> cases hb <;> rfl
  rw [before, samePlace, collated, beq_iff_eq, beq_iff_eq]
  exact ⟨orderItems?_before, samePlace_items⟩

/-- The order of view keys never fails to answer and is total: reflexive, transitive, and of
any two values one is not after the other.  It goes by kinds, then by exact amounts or by
the items of arrays. -/
theorem collation_totally_ordered {a b c : Value} (ha : a.isJson = true) (hb : b.isJson = true)
    (hc : c.isJson = true) :
    (∃ o, a.collation.order? b.collation = some o ∧
      b.collation.order? a.collation = some o.swap) ∧
    a.samePlace a = true ∧
    (a.notAfter b = true → b.notAfter c = true → a.notAfter c = true) ∧
    (a.notAfter b = true ∨ b.notAfter a = true) ∧
    (∃ k l, a.kind? = some k ∧ b.kind? = some l ∧ (k.index < l.index → a.before b = true)) ∧
    (∀ x y, a.amount? = some x → b.amount? = some y →
      (a.before b = true ↔ x < y) ∧ (a.samePlace b = true ↔ x = y)) ∧
    (∀ xs ys, a.array? = some xs → b.array? = some ys →
      (a.before b = true ↔ ItemsBefore xs ys) ∧
        (a.samePlace b = true ↔ List.Forall₂ (fun x y => x.samePlace y = true) xs ys)) := by
  obtain ⟨k, hk⟩ := kind?_of_json ha
  obtain ⟨l, hl⟩ := kind?_of_json hb
  refine ⟨order?_swap ha hb, (samePlace_iff ha ha).2 rfl, ?_, ?_,
    ⟨k, l, hk, hl, before_of_kind hk hl⟩, fun x y => order?_amounts, fun xs ys => before_arrays⟩
  · rw [notAfter_iff ha hb, notAfter_iff hb hc, notAfter_iff ha hc]
    exact le_trans
  · rw [notAfter_iff ha hb, notAfter_iff hb ha]
    exact le_total _ _

namespace Keys

def whole : Value := .list [.int 9007199254740993]

def double : Value := .tuple [.float (.finite false 4503599627370496 1075), .null]

def object : Value := .map [(.str "a", .list [.bool true, .map []])]

end Keys

open Keys in
theorem collation_totally_ordered_near_double :
    whole.isJson = true ∧ double.isJson = true ∧ object.isJson = true ∧
      (whole.notAfter double = true ∨ double.notAfter whole = true) ∧
      (whole.before double = true ↔
        ItemsBefore [.int 9007199254740993] [.float (.finite false 4503599627370496 1075), .null]) ∧
      (whole.notAfter double = true → double.notAfter object = true →
        whole.notAfter object = true) := by
  obtain ⟨-, -, trans, total, -, -, arrays⟩ :=
    collation_totally_ordered (a := whole) (b := double) (c := object) rfl rfl rfl
  exact ⟨rfl, rfl, rfl, total, (arrays _ _ rfl rfl).1, trans⟩

end Value

end DocMapper
