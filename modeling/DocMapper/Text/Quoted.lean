import DocMapper.Text.Printable

/-!
# Quoted text

The quoted form of a text stands in single quotes, or in double quotes if it
holds a single quote and no double one.  Backslash, the quote in use and every
character that is not printable are escaped.
-/

namespace DocMapper.Text

def hexDigit (n : Nat) : Char := (Nat.digitChar (n % 16))

def hexDigits : Nat → Nat → List Char
  | 0, _ => []
  | width + 1, n => hexDigits width (n / 16) ++ [hexDigit n]

theorem hexDigits_length (width n : Nat) : (hexDigits width n).length = width := by
  induction width generalizing n with
  | zero => rfl
  | succ width ih => simp [hexDigits, ih]

def numericEscape (c : Char) : List Char :=
  let n := c.toNat
  if n < 0x100 then '\\' :: 'x' :: hexDigits 2 n
  else if n < 0x10000 then '\\' :: 'u' :: hexDigits 4 n
  else '\\' :: 'U' :: hexDigits 8 n

def escapeChar (quote c : Char) : List Char :=
  if c = quote ∨ c = '\\' then ['\\', c]
  else if c = '\n' then ['\\', 'n']
  else if c = '\r' then ['\\', 'r']
  else if c = '\t' then ['\\', 't']
  else if isPrintable c then [c]
  else numericEscape c

def quoteFor (cs : List Char) : Char :=
  if cs.contains '\'' && !cs.contains '"' then '"' else '\''

def quotedChars (cs : List Char) : List Char :=
  let quote := quoteFor cs
  quote :: (cs.flatMap (escapeChar quote) ++ [quote])

def quoted (s : String) : String := String.ofList (quotedChars s.toList)

/-- Bytes are quoted like text after a `b`; only printable ASCII stands for
itself. -/
def quotedBytes (bytes : List UInt8) : String :=
  let cs := bytes.map fun b => Char.ofNat b.toNat
  let quote := quoteFor cs
  let escape (c : Char) : List Char :=
    if c.toNat < 127 then escapeChar quote c else numericEscape c
  String.ofList ('b' :: quote :: (cs.flatMap escape ++ [quote]))

end DocMapper.Text
