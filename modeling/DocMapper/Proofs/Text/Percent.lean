import DocMapper.Text.Percent
import Mathlib.Order.Defs.LinearOrder

/-!
# Reading encoded segments back

Decoding undoes the encoding of every text, so different texts have different
segments.  A segment holds percent signs, letters, digits and four marks only;
nothing in it can be taken for the end of a segment or of a path.
-/

namespace DocMapper

theorem Text.ofUtf8?_utf8 (s : String) : Text.ofUtf8? (Text.utf8 s) = some s := by
  have bytes : ByteArray.mk (Text.utf8 s).toArray = s.toByteArray := by
    rw [← String.utf8Encode_toList, List.utf8Encode]
    ext1
    simp [Text.utf8]
  rw [Text.ofUtf8?, String.fromUTF8?, bytes, dif_pos s.isValidUTF8]
  rfl

namespace Percent

def hexSign (n : Nat) : Char := (Text.hexDigit n).toUpper

theorem hexPair_eq (b : UInt8) : hexPair b = [hexSign (b.toNat / 16), hexSign b.toNat] := rfl

theorem hexValue?_hexSign (n : Nat) : hexValue? (hexSign n) = some (n % 16) := by
  have digits : ∀ k : Fin 16, hexValue? (Nat.digitChar k).toUpper = some k.val := by decide
  exact digits ⟨n % 16, Nat.mod_lt n (by decide)⟩

theorem isAlphanum_hexSign (n : Nat) : (hexSign n).isAlphanum := by
  have digits : ∀ k : Fin 16, (Nat.digitChar k).toUpper.isAlphanum := by decide
  exact digits ⟨n % 16, Nat.mod_lt n (by decide)⟩

def isSegmentChar (c : Char) : Bool := c = '%' || c.isAlphanum || unreservedMarks.contains c

theorem isSegmentChar_of_alphanum {c : Char} (letter : c.isAlphanum) : isSegmentChar c := by
  simp [isSegmentChar, letter]

theorem isSegmentChar_of_mem_encodeByte {b : UInt8} {c : Char} (inside : c ∈ encodeByte b) :
    isSegmentChar c := by
  rw [encodeByte] at inside
  split at inside
  next plain =>
    rw [isUnreserved] at plain
    rw [List.mem_singleton.mp inside, isSegmentChar]
    grind
  next =>
    simp only [hexPair_eq, List.mem_cons, List.not_mem_nil, or_false] at inside
    obtain rfl | rfl | rfl := inside
    · rfl
    · exact isSegmentChar_of_alphanum (isAlphanum_hexSign _)
    · exact isSegmentChar_of_alphanum (isAlphanum_hexSign _)

theorem isSegmentChar_of_mem_encode {s : String} {c : Char} (inside : c ∈ (encode s).toList) :
    isSegmentChar c := by
  simp only [encode, encodeBytes, String.toList_ofList, List.mem_flatMap] at inside
  obtain ⟨b, -, inside⟩ := inside
  exact isSegmentChar_of_mem_encodeByte inside

theorem slash_not_mem_encode (s : String) : '/' ∉ (encode s).toList := by
  intro inside
  have other : ¬ isSegmentChar '/' := by decide
  exact other (isSegmentChar_of_mem_encode inside)

theorem toNat_ofByte (b : UInt8) : (Char.ofNat b.toNat).toNat = b.toNat := by
  have valid : b.toNat.isValidChar := .inl (Nat.lt_trans b.toNat_lt (by decide))
  rw [Char.ofNat, dif_pos valid]
  rfl

theorem utf8EncodeChar_ofNat {b : UInt8} (ascii : b < 128) :
    String.utf8EncodeChar (Char.ofNat b.toNat) = [b] := by
  have small : b.toNat < 128 := ascii
  simp [String.utf8EncodeChar, toNat_ofByte b]
  omega

theorem decodeBytes_pair (b : UInt8) (rest : List Char) :
    decodeBytes ('%' :: (hexPair b ++ rest)) = b :: decodeBytes rest := by
  have whole : 16 * (b.toNat / 16 % 16) + b.toNat % 16 = b.toNat := by
    have := b.toNat_lt
    omega
  simp only [hexPair_eq, List.cons_append, List.nil_append, decodeBytes, hexValue?_hexSign,
    whole, UInt8.ofNat_toNat]

theorem decodeBytes_of_ne {c : Char} (sign : c ≠ '%') (rest : List Char) :
    decodeBytes (c :: rest) = String.utf8EncodeChar c ++ decodeBytes rest := by
  rw [decodeBytes]
  intro a b after whole
  simp_all

theorem decodeBytes_encodeByte (b : UInt8) (rest : List Char) :
    decodeBytes (encodeByte b ++ rest) = b :: decodeBytes rest := by
  rw [encodeByte]
  split
  next plain =>
    have ascii : b < 128 := by grind [isUnreserved]
    have sign : Char.ofNat b.toNat ≠ '%' := by
      intro percent
      rw [isUnreserved, percent] at plain
      simp [unreservedMarks] at plain
    rw [List.singleton_append, decodeBytes_of_ne sign, utf8EncodeChar_ofNat ascii]
    rfl
  next => exact decodeBytes_pair b rest

theorem decodeBytes_encodeBytes (bytes : List UInt8) :
    decodeBytes (encodeBytes bytes) = bytes := by
  induction bytes with
  | nil => rfl
  | cons b bytes ih =>
    rw [encodeBytes, List.flatMap_cons, decodeBytes_encodeByte]
    exact congrArg (b :: ·) ih

@[simp] theorem decode_encode (s : String) : decode (encode s) = s := by
  simp [decode, encode, decodeBytes_encodeBytes, Text.ofUtf8?_utf8]

end Percent

end DocMapper
