import DocMapper.Text.Quoted
import DocMapper.Text.Utf8

/-!
# Percent encoding

A text as one segment of a path: letters, digits and four marks stand for
themselves, and every other byte is written as a percent sign and two
hexadecimal digits in upper case.
-/

namespace DocMapper.Percent

def unreservedMarks : List Char := ['_', '.', '-', '~']

def isUnreserved (b : UInt8) : Bool :=
  let c := Char.ofNat b.toNat
  b < 128 && (c.isAlphanum || unreservedMarks.contains c)

def hexPair (b : UInt8) : List Char := (Text.hexDigits 2 b.toNat).map Char.toUpper

def encodeByte (b : UInt8) : List Char :=
  if isUnreserved b then [Char.ofNat b.toNat] else '%' :: hexPair b

def encodeBytes (bytes : List UInt8) : List Char := bytes.flatMap encodeByte

def encode (s : String) : String := String.ofList (encodeBytes (Text.utf8 s))

def hexValue? (c : Char) : Option Nat :=
  if c.isDigit then some (c.toNat - '0'.toNat)
  else if 'a' ≤ c ∧ c ≤ 'f' then some (c.toNat - 'a'.toNat + 10)
  else if 'A' ≤ c ∧ c ≤ 'F' then some (c.toNat - 'A'.toNat + 10)
  else none

/-- Percent signs without two hexadecimal digits stand for themselves. -/
def decodeBytes : List Char → List UInt8
  | '%' :: a :: b :: rest =>
      match hexValue? a, hexValue? b with
      | some high, some low => UInt8.ofNat (16 * high + low) :: decodeBytes rest
      | _, _ => String.utf8EncodeChar '%' ++ decodeBytes (a :: b :: rest)
  | c :: rest => String.utf8EncodeChar c ++ decodeBytes rest
  | [] => []

/-- The text that an encoded one stands for; if its bytes are no text, it stands
for itself. -/
def decode (s : String) : String := (Text.ofUtf8? (decodeBytes s.toList)).getD s

end DocMapper.Percent
