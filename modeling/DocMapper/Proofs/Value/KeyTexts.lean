import DocMapper.Proofs.Json.RoundTrip
import DocMapper.Proofs.Text.Percent
import DocMapper.Proofs.Value.Json
import DocMapper.Value.Display

/-!
# Texts of keys

A key that is null, a truth value, a number or bytes is known by its display text: no other
such key has it.  Texts are keys of their own, and any of them may be the display text of a
key beside it.
-/

namespace DocMapper

namespace Text

theorem flatMap_injective {α β : Type} {code : α → List β} (nonempty : ∀ a, code a ≠ [])
    (starts : ∀ a b x y, code a ++ x = code b ++ y → a = b) :
    Function.Injective (List.flatMap code) := by
  intro xs
  induction xs with
  | nil =>
      intro ys same
      cases ys with
      | nil => rfl
      | cons y ys => exact absurd (List.append_eq_nil_iff.1 same.symm).1 (nonempty y)
  | cons x xs ih =>
      intro ys same
      cases ys with
      | nil => exact absurd (List.append_eq_nil_iff.1 same).1 (nonempty x)
      | cons y ys =>
          obtain rfl := starts x y _ _ same
          rw [ih (List.append_cancel_left same)]

def unescaped? : List Char → Option Char
  | '\\' :: 'x' :: a :: b :: _ => (Json.hexNumber? [a, b]).map Char.ofNat
  | '\\' :: 'n' :: _ => some '\n'
  | '\\' :: 'r' :: _ => some '\r'
  | '\\' :: 't' :: _ => some '\t'
  | '\\' :: c :: _ => some c
  | c :: _ => some c
  | [] => none

def escapeByte (quote : Char) (b : UInt8) : List Char :=
  let c := Char.ofNat b.toNat
  if c.toNat < 127 then escapeChar quote c else numericEscape c

def quoteForBytes (data : List UInt8) : Char :=
  quoteFor (data.map fun b => Char.ofNat b.toNat)

theorem toList_quotedBytes (data : List UInt8) :
    (quotedBytes data).toList = 'b' :: quoteForBytes data ::
      (data.flatMap (escapeByte (quoteForBytes data)) ++ [quoteForBytes data]) := by
  unfold quotedBytes
  rw [String.toList_ofList, List.flatMap_map]
  rfl

theorem quoteFor_cases (cs : List Char) : quoteFor cs = '\'' ∨ quoteFor cs = '"' := by
  unfold quoteFor
  split
  next => exact .inr rfl
  next => exact .inl rfl

theorem unescaped?_numericEscape {c : Char} (small : c.toNat < 0x100) (rest : List Char) :
    unescaped? (numericEscape c ++ rest) = some c := by
  have digits := Json.hexNumber?_hexDigits 2 c.toNat
  have whole : c.toNat % 16 ^ 2 = c.toNat := Nat.mod_eq_of_lt small
  rw [whole] at digits
  have read : unescaped? (numericEscape c ++ rest) =
      (Json.hexNumber? (hexDigits 2 c.toNat)).map Char.ofNat := by
    rw [numericEscape, if_pos small]
    rfl
  rw [read, digits, Option.map_some, Char.ofNat_toNat]

theorem unescaped?_plain {c : Char} (other : c ≠ '\\') (rest : List Char) :
    unescaped? (c :: rest) = some c := by
  unfold unescaped?
  split <;> simp_all

theorem unescaped?_escapeByte {quote : Char} (quotes : quote = '\'' ∨ quote = '"') (b : UInt8)
    (rest : List Char) :
    unescaped? (escapeByte quote b ++ rest) = some (Char.ofNat b.toNat) := by
  have small : (Char.ofNat b.toNat).toNat < 0x100 := by
    rw [Percent.toNat_ofByte]
    exact b.toNat_lt
  unfold escapeByte
  generalize Char.ofNat b.toNat = c at small
  dsimp only
  split
  next =>
    unfold escapeChar
    split_ifs with self newline return' tab printable
    · rcases self with rfl | rfl
      · rcases quotes with rfl | rfl <;> rfl
      · rfl
    · rw [newline]; rfl
    · rw [return']; rfl
    · rw [tab]; rfl
    · have other : c ≠ '\\' := fun backslash => self (.inr backslash)
      exact unescaped?_plain other rest
    · exact unescaped?_numericEscape small rest
  next => exact unescaped?_numericEscape small rest

theorem quotedBytes_injective : Function.Injective quotedBytes := by
  intro data data' same
  have texts := congrArg String.toList same
  rw [toList_quotedBytes, toList_quotedBytes] at texts
  -- The quote in use is the second character; under one quote the escapes are a code.
  obtain ⟨quotes, bodies⟩ := List.cons.inj (List.cons.inj texts).2
  have quote := quoteFor_cases (data.map fun b => Char.ofNat b.toNat)
  rw [← quotes] at bodies
  refine flatMap_injective ?_ ?_ (List.append_cancel_right bodies)
  · intro b nil
    have first := unescaped?_escapeByte quote b []
    rw [quoteForBytes] at nil
    rw [nil] at first
    cases first
  · intro b b' x y starts
    have first := unescaped?_escapeByte quote b x
    rw [quoteForBytes] at starts
    rw [starts, unescaped?_escapeByte quote] at first
    have number := congrArg Char.toNat (Option.some.inj first)
    rw [Percent.toNat_ofByte, Percent.toNat_ofByte] at number
    exact (UInt8.toNat_inj.1 number).symm

end Text

namespace Value

/-- A number, a word or bytes, as a key or beside texts as keys. -/
def IsScalar : Value → Prop
  | .null | .bool _ | .int _ | .str _ | .bytes _ => True
  | .float x => x.WellFormed
  | _ => False

theorem IsScalar.hashable {k : Value} (scalar : k.IsScalar) : k.hashable = true := by
  cases k with
  | null | bool | int | float | str | bytes => rfl
  | _ => cases scalar

def words : List (String × Value) :=
  [("None", .null), ("True", .bool true), ("False", .bool false),
    ("inf", .float (.infinite false)), ("-inf", .float (.infinite true))]

def shown? (s : String) : Option Value :=
  match Json.scalar? s.toList with
  | some (j, _) => some j.toValue
  | none => words.lookup s

theorem shown?_number {s : String} {j : Json}
    (reads : Json.scalar? (s.toList ++ []) = some (j, [])) : shown? s = some j.toValue := by
  rw [List.append_nil] at reads
  rw [shown?, reads]

theorem shown?_bytes (data : List UInt8) : shown? (Text.quotedBytes data) = none := by
  have chars := Text.toList_quotedBytes data
  have unread : Json.scalar? (Text.quotedBytes data).toList = none := by
    rw [chars]
    rfl
  rw [shown?, unread]
  refine List.lookup_eq_none_iff.2 fun word mem => bne_iff_ne.2 fun same => ?_
  have other : ∀ word ∈ words, word.1.toList.head? ≠ some 'b' := by decide
  rw [same] at chars
  exact other word mem (by rw [chars]; rfl)

theorem shown?_text {k : Value} (scalar : k.IsScalar) (nameless : k.isText = false) :
    (∃ data, k = .bytes data) ∧ shown? k.text = none ∨ shown? k.text = some k := by
  have ends : Json.Ends [] := nofun
  cases k with
  | null => exact .inr (by rfl)
  | bool b => cases b <;> exact .inr (by rfl)
  | int i => exact .inr (shown?_number (Json.scalar?_int i ends))
  | float x =>
      cases x with
      | infinite negative => cases negative <;> exact .inr (by rfl)
      | finite negative mantissa exponent =>
          have formed : Double.WellFormed (.finite negative mantissa exponent) := scalar
          exact .inr (shown?_number (Json.scalar?_float formed ends))
  | bytes data => exact .inl ⟨⟨data, rfl⟩, shown?_bytes data⟩
  | str => cases nameless
  | _ => cases scalar

theorem scalar_eq_of_text {a b : Value} (ha : a.IsScalar) (hb : b.IsScalar) (na : a.isText = false)
    (nb : b.isText = false) (same : a.text = b.text) : a = b := by
  rcases shown?_text ha na with ⟨⟨data, rfl⟩, unread⟩ | read
  · rcases shown?_text hb nb with ⟨⟨data', rfl⟩, -⟩ | read'
    · exact congrArg _ (Text.quotedBytes_injective same)
    · rw [same, read'] at unread
      cases unread
  · rcases shown?_text hb nb with ⟨-, unread⟩ | read'
    · rw [same, unread] at read
      cases read
    · rw [same, read'] at read
      exact (Option.some.inj read).symm

end Value

end DocMapper
