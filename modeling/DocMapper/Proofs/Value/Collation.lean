import DocMapper.Proofs.Value.Json
import DocMapper.Value.Collation
import Mathlib.Data.Int.ConditionallyCompleteOrder
import Mathlib.Data.List.Lex
import Mathlib.Data.String.Basic
import Mathlib.Data.Sum.Order
import Mathlib.Order.ConditionallyCompleteLattice.Basic
import Mathlib.Order.WithBot

/-!
# View order is a linear order

A place in view order is spelled as a list of tokens: ranks, numbers and texts, and
a mark after the last item of an array or an object.  Places of JSON values are
ordered as their spellings are, token by token.
-/

namespace DocMapper

abbrev Token := WithBot (WithTop ℤ) ⊕ₗ String

namespace Token

def number (x : WithBot (WithTop ℤ)) : Token := toLex (.inl x)
def rank (n : Nat) : Token := number ((n : ℤ) : WithTop ℤ)
def text (s : String) : Token := toLex (.inr s)

/-- What follows the last item; it comes before every other token that can stand in
its place. -/
def close : Token := number ⊥

theorem number_lt_number {x y : WithBot (WithTop ℤ)} : number x < number y ↔ x < y :=
  Sum.Lex.inl_lt_inl_iff

theorem text_lt_text {s t : String} : text s < text t ↔ s < t :=
  Sum.Lex.inr_lt_inr_iff

theorem rank_lt_rank {m n : Nat} : rank m < rank n ↔ m < n := by
  rw [rank, rank, number_lt_number]
  simp

theorem close_lt_rank (n : Nat) : close < rank n :=
  number_lt_number.2 (WithBot.bot_lt_coe _)

theorem close_lt_text (s : String) : close < text s :=
  Sum.Lex.inl_lt_inr _ _

end Token

def Quantity.place : Quantity → WithBot (WithTop ℤ)
  | .negInfinity => ⊥
  | .units n => ((n : WithTop ℤ) : WithBot (WithTop ℤ))
  | .posInfinity => ((⊤ : WithTop ℤ) : WithBot (WithTop ℤ))

theorem Quantity.place_lt {x y : Quantity} : x.place < y.place ↔ x.lt y = true := by
  cases x <;> cases y <;> simp [Quantity.place, Quantity.lt]
  exact WithBot.coe_lt_coe.2 (WithTop.coe_lt_top _)

namespace Collation

mutual

def tokens : Collation → List Token
  | .null => [.rank 0]
  | .no => [.rank 1]
  | .yes => [.rank 2]
  | .int i => [.rank 3, .number (Quantity.ofInt i).place]
  | .float x => [.rank 3, .number x.quantity.place]
  | .text s => [.rank 4, .text s]
  | .array items => .rank 5 :: itemTokens items
  | .object entries => .rank 6 :: entryTokens entries
  | .other s => [.rank 7, .text s]
termination_by structural x => x

def itemTokens : List Collation → List Token
  | [] => [.close]
  | x :: xs => tokens x ++ itemTokens xs
termination_by structural x => x

def entryTokens : List (Value × Collation) → List Token
  | [] => [.close]
  | (k, x) :: rest => .text k.text :: (tokens x ++ entryTokens rest)
termination_by structural x => x

end

mutual

def isPlain : Collation → Bool
  | .array items => allPlain items
  | .object entries => plainEntries entries
  | _ => true
termination_by structural x => x

def allPlain : List Collation → Bool
  | [] => true
  | x :: xs => isPlain x && allPlain xs
termination_by structural x => x

def plainEntries : List (Value × Collation) → Bool
  | [] => true
  | (k, x) :: rest => k.isText && isPlain x && plainEntries rest
termination_by structural x => x

end

/-! ## Decided by the spelling -/

/-- The order of two spellings, whatever follows them. -/
inductive Decided (a b : List Token) : Ordering → Prop where
  | lt (before : ∀ s t, a ++ s < b ++ t) : Decided a b .lt
  | eq (same : a = b) : Decided a b .eq
  | gt (after : ∀ s t, b ++ t < a ++ s) : Decided a b .gt

namespace Decided

variable {a b a' b' : List Token} {x y : Token} {o o' : Ordering}

theorem head_lt (h : x < y) : Decided (x :: a) (y :: b) .lt :=
  .lt fun _ _ => List.cons_lt_cons_iff.2 (.inl h)

theorem head_gt (h : y < x) : Decided (x :: a) (y :: b) .gt :=
  .gt fun _ _ => List.cons_lt_cons_iff.2 (.inl h)

theorem cons (x : Token) (h : Decided a b o) : Decided (x :: a) (x :: b) o := by
  cases h with
  | lt before => exact .lt fun s t => List.cons_lt_cons_iff.2 (.inr ⟨rfl, before s t⟩)
  | eq same => exact .eq (by rw [same])
  | gt after => exact .gt fun s t => List.cons_lt_cons_iff.2 (.inr ⟨rfl, after s t⟩)

theorem append_lt (h : Decided a b .lt) : Decided (a ++ a') (b ++ b') .lt := by
  cases h with
  | lt before =>
      refine .lt fun s t => ?_
      rw [List.append_assoc, List.append_assoc]
      exact before _ _

theorem append_gt (h : Decided a b .gt) : Decided (a ++ a') (b ++ b') .gt := by
  cases h with
  | gt after =>
      refine .gt fun s t => ?_
      rw [List.append_assoc, List.append_assoc]
      exact after _ _

theorem append_eq (h : Decided a b .eq) (h' : Decided a' b' o) :
    Decided (a ++ a') (b ++ b') o := by
  cases h with
  | eq same =>
      subst same
      induction a with
      | nil => exact h'
      | cons x a ih => exact cons x ih

end Decided

theorem decided_numbers (x y : Quantity) :
    Decided [.number x.place] [.number y.place] (orderQuantities x y) := by
  rw [orderQuantities]
  obtain h | rfl | h := Quantity.lt_or_eq_or_gt x y
  · rw [if_pos h]
    exact .head_lt (Token.number_lt_number.2 (Quantity.place_lt.2 h))
  · simp only [Quantity.lt_irrefl, Bool.false_eq_true, if_false]
    exact .eq rfl
  · have not : ¬ x.lt y = true := by
      rw [← Quantity.place_lt] at h ⊢
      exact h.asymm
    rw [if_neg not, if_pos h]
    exact .head_gt (Token.number_lt_number.2 (Quantity.place_lt.2 h))

theorem decided_texts (s t : String) :
    Decided [.text s] [.text t] (orderTexts s t) := by
  rw [orderTexts]
  obtain h | rfl | h := lt_trichotomy s t
  · rw [if_pos h]
    exact .head_lt (Token.text_lt_text.2 h)
  · rw [if_neg (lt_irrefl s), if_pos rfl]
    exact .eq rfl
  · rw [if_neg h.asymm, if_neg h.ne']
    exact .head_gt (Token.text_lt_text.2 h)

theorem tokens_rank (a : Collation) : ∃ rest, a.tokens = .rank a.rank :: rest := by
  cases a <;> exact ⟨_, rfl⟩

theorem order?_of_rank {a b : Collation} (h : a.rank ≠ b.rank) :
    order? a b = some (compare a.rank b.rank) := by
  cases a <;> cases b <;> first | rfl | exact absurd rfl h

theorem decided_ranks {a b : Collation} (h : a.rank ≠ b.rank) :
    Decided a.tokens b.tokens (compare a.rank b.rank) := by
  obtain ⟨ra, ha⟩ := tokens_rank a
  obtain ⟨rb, hb⟩ := tokens_rank b
  rw [ha, hb]
  obtain less | greater := Nat.lt_or_gt_of_ne h
  · rw [Nat.compare_eq_lt.2 less]
    exact .head_lt (Token.rank_lt_rank.2 less)
  · rw [Nat.compare_eq_gt.2 greater]
    exact .head_gt (Token.rank_lt_rank.2 greater)

theorem order?_decided_apart {a b : Collation} (h : a.rank ≠ b.rank) :
    ∃ o, order? a b = some o ∧ Decided a.tokens b.tokens o :=
  ⟨_, order?_of_rank h, decided_ranks h⟩

theorem order?_decided_single {a : Collation} (b : Collation) (array : a.rank ≠ 5)
    (object : a.rank ≠ 6) : ∃ o, order? a b = some o ∧ Decided a.tokens b.tokens o := by
  by_cases same : a.rank = b.rank
  · cases a <;> cases b <;> first
      | exact ⟨.eq, rfl, .eq rfl⟩
      | exact ⟨_, rfl, (decided_numbers _ _).cons _⟩
      | exact ⟨_, rfl, (decided_texts _ _).cons _⟩
      | exact absurd rfl array
      | exact absurd rfl object
      | simp [rank] at same
  · exact order?_decided_apart same

mutual

theorem order?_decided : ∀ a b : Collation, a.isPlain = true → b.isPlain = true →
    ∃ o, order? a b = some o ∧ Decided a.tokens b.tokens o
  | .array xs, b, ha, hb => by
      cases b with
      | array ys =>
          obtain ⟨o, order, decided⟩ := orderItems?_decided xs ys ha hb
          exact ⟨o, order, decided.cons _⟩
      | _ => exact order?_decided_apart (by simp [rank])
  | .object xs, b, ha, hb => by
      cases b with
      | object ys =>
          obtain ⟨o, order, decided⟩ := orderEntries?_decided xs ys ha hb
          exact ⟨o, order, decided.cons _⟩
      | _ => exact order?_decided_apart (by simp [rank])
  | .null, b, _, _ | .no, b, _, _ | .yes, b, _, _ | .int _, b, _, _ | .float _, b, _, _
  | .text _, b, _, _ | .other _, b, _, _ =>
      order?_decided_single b (by simp [rank]) (by simp [rank])

theorem orderItems?_decided : ∀ xs ys : List Collation, allPlain xs = true →
    allPlain ys = true → ∃ o, orderItems? xs ys = some o ∧
      Decided (itemTokens xs) (itemTokens ys) o
  | [], [], _, _ => ⟨.eq, rfl, .eq rfl⟩
  | [], y :: ys, _, _ => by
      obtain ⟨rest, hy⟩ := tokens_rank y
      refine ⟨.lt, rfl, ?_⟩
      rw [itemTokens, itemTokens, hy]
      exact .head_lt (Token.close_lt_rank _)
  | x :: xs, [], _, _ => by
      obtain ⟨rest, hx⟩ := tokens_rank x
      refine ⟨.gt, rfl, ?_⟩
      rw [itemTokens, itemTokens, hx]
      exact .head_gt (Token.close_lt_rank _)
  | x :: xs, y :: ys, hx, hy => by
      rw [allPlain, Bool.and_eq_true] at hx hy
      obtain ⟨o, order, decided⟩ := order?_decided x y hx.1 hy.1
      rw [orderItems?, order, itemTokens, itemTokens]
      cases o with
      | lt => exact ⟨.lt, rfl, decided.append_lt⟩
      | gt => exact ⟨.gt, rfl, decided.append_gt⟩
      | eq =>
          obtain ⟨o', order', decided'⟩ := orderItems?_decided xs ys hx.2 hy.2
          exact ⟨o', order', decided.append_eq decided'⟩

theorem orderEntries?_decided : ∀ xs ys : List (Value × Collation),
    plainEntries xs = true → plainEntries ys = true →
    ∃ o, orderEntries? xs ys = some o ∧ Decided (entryTokens xs) (entryTokens ys) o
  | [], [], _, _ => ⟨.eq, rfl, .eq rfl⟩
  | [], (l, y) :: ys, _, _ => ⟨.lt, rfl, .head_lt (Token.close_lt_text _)⟩
  | (k, x) :: xs, [], _, _ => ⟨.gt, rfl, .head_gt (Token.close_lt_text _)⟩
  | (k, x) :: xs, (l, y) :: ys, hx, hy => by
      simp only [plainEntries, Bool.and_eq_true] at hx hy
      obtain ⟨s, rfl⟩ := Value.isText_iff.1 hx.1.1
      obtain ⟨t, rfl⟩ := Value.isText_iff.1 hy.1.1
      rw [orderEntries?, entryTokens, entryTokens, Value.same_str]
      obtain less | rfl | greater := lt_trichotomy s t
      · refine ⟨.lt, ?_, .head_lt (Token.text_lt_text.2 less)⟩
        simp [Value.less?, less, less.ne]
      · obtain ⟨o, order, decided⟩ := order?_decided x y hx.1.2 hy.1.2
        rw [beq_self_eq_true, if_pos rfl, order]
        cases o with
        | lt => exact ⟨.lt, rfl, decided.append_lt.cons _⟩
        | gt => exact ⟨.gt, rfl, decided.append_gt.cons _⟩
        | eq =>
            obtain ⟨o', order', decided'⟩ := orderEntries?_decided xs ys hx.2 hy.2
            exact ⟨o', order', (decided.append_eq decided').cons _⟩
      · refine ⟨.gt, ?_, .head_gt (Token.text_lt_text.2 greater)⟩
        simp [Value.less?, greater.not_gt, greater.ne']

end

theorem order?_tokens {a b : Collation} (ha : a.isPlain = true) (hb : b.isPlain = true) :
    order? a b = some (compareOfLessAndEq a.tokens b.tokens) := by
  obtain ⟨o, order, decided⟩ := order?_decided a b ha hb
  rw [order, compareOfLessAndEq]
  cases decided with
  | lt before =>
      have less : a.tokens < b.tokens := by simpa using before [] []
      rw [if_pos less]
  | eq same => rw [same, if_neg (lt_irrefl _), if_pos rfl]
  | gt after =>
      have greater : b.tokens < a.tokens := by simpa using after [] []
      rw [if_neg greater.asymm, if_neg greater.ne']

theorem order?_congr {a b c : Collation} (ha : a.isPlain = true) (hb : b.isPlain = true)
    (hc : c.isPlain = true) (h : order? b c = some .eq) : order? a b = order? a c := by
  rw [order?_tokens hb hc, Option.some.injEq, compareOfLessAndEq] at h
  rw [order?_tokens ha hb, order?_tokens ha hc]
  split at h
  · cases h
  · split at h
    next same => rw [same]
    · cases h

end Collation

namespace Value

mutual

theorem isPlain_collation : ∀ v : Value, v.isJson = true → v.collation.isPlain = true
  | .list items, h | .tuple items, h => allPlain_collation items h
  | .map entries, h | .readOnly entries, h => plainEntries_collation entries h
  | .bool b, _ => by cases b <;> rfl
  | .null, _ | .int _, _ | .float _, _ | .str _, _ => rfl

theorem allPlain_collation : ∀ items : List Value, allJson items = true →
    Collation.allPlain (collationItems items) = true
  | [], _ => rfl
  | v :: vs, h => by
      rw [allJson, Bool.and_eq_true] at h
      rw [collationItems, Collation.allPlain, isPlain_collation v h.1,
        allPlain_collation vs h.2]
      rfl

theorem plainEntries_collation : ∀ entries : List (Value × Value),
    jsonEntries entries = true → Collation.plainEntries (collationEntries entries) = true
  | [], _ => rfl
  | (k, v) :: rest, h => by
      simp only [jsonEntries, Bool.and_eq_true] at h
      rw [collationEntries, Collation.plainEntries, h.1.1.1, isPlain_collation v h.1.2,
        plainEntries_collation rest h.2]
      rfl

end

end Value

end DocMapper
