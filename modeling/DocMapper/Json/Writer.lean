import DocMapper.Json.Basic

/-!
# Writing JSON

A style fixes the separators, the indentation, and whether characters beyond
ASCII are escaped.
-/

namespace DocMapper.Json

structure Style where
  itemSeparator : String
  keySeparator : String
  /-- Blanks per level; without it everything stands on one line. -/
  indent : Option Nat
  asciiOnly : Bool

def Style.oneLine : Style := ⟨", ", ": ", none, true⟩
def Style.compact : Style := ⟨",", ":", none, true⟩
def Style.compactRaw : Style := ⟨",", ":", none, false⟩
def Style.indented (width : Nat) : Style := ⟨",", ": ", some width, true⟩

def unicodeEscape (unit : Nat) : List Char := '\\' :: 'u' :: Text.hexDigits 4 unit

/-- The escapes of a character beyond ASCII: of its number, or of the two halves
of a surrogate pair. -/
def wideEscape (n : Nat) : List Char :=
  if n < 0x10000 then unicodeEscape n
  else
    let offset := n - 0x10000
    unicodeEscape (0xd800 + offset / 0x400) ++ unicodeEscape (0xdc00 + offset % 0x400)

def escapeChar (asciiOnly : Bool) (c : Char) : List Char :=
  if c = '"' then ['\\', '"']
  else if c = '\\' then ['\\', '\\']
  else if c = '\n' then ['\\', 'n']
  else if c = '\r' then ['\\', 'r']
  else if c = '\t' then ['\\', 't']
  else if c.toNat = 8 then ['\\', 'b']
  else if c.toNat = 12 then ['\\', 'f']
  else if c.toNat < 32 then unicodeEscape c.toNat
  else if asciiOnly && 127 ≤ c.toNat then wideEscape c.toNat
  else [c]

def stringChars (asciiOnly : Bool) (s : String) : List Char :=
  '"' :: (s.toList.flatMap (escapeChar asciiOnly) ++ ['"'])

def lineBreak (style : Style) (depth : Nat) : List Char :=
  match style.indent with
  | some width => '\n' :: List.replicate (width * depth) ' '
  | none => []

def bracketed (style : Style) (depth : Nat) (left right : Char)
    (parts : List (List Char)) : List Char :=
  if parts.isEmpty then [left, right]
  else
    let separator := style.itemSeparator.toList ++ lineBreak style (depth + 1)
    left :: (lineBreak style (depth + 1) ++ separator.intercalate parts ++
      lineBreak style depth ++ [right])

mutual

def chars (style : Style) : Nat → Json → List Char
  | _, .null => "null".toList
  | _, .bool b => (if b then "true" else "false").toList
  | _, .int i => (toString i).toList
  | _, .float x => (floatText x).toList
  | _, .str s => stringChars style.asciiOnly s
  | depth, .array items => bracketed style depth '[' ']' (itemChars style (depth + 1) items)
  | depth, .object members =>
      bracketed style depth '\x7b' '\x7d' (memberChars style (depth + 1) members)
termination_by structural _ x => x

def itemChars (style : Style) : Nat → List Json → List (List Char)
  | _, [] => []
  | depth, j :: js => chars style depth j :: itemChars style depth js
termination_by structural _ x => x

def memberChars (style : Style) : Nat → List (String × Json) → List (List Char)
  | _, [] => []
  | depth, (k, j) :: rest =>
      (stringChars style.asciiOnly k ++ style.keySeparator.toList ++ chars style depth j) ::
        memberChars style depth rest
termination_by structural _ x => x

end

def write (style : Style) (j : Json) : String := String.ofList (chars style 0 j)

end DocMapper.Json

namespace DocMapper.Value

def jsonText (v : Value) (style : Json.Style) (sortKeys : Bool) : Outcome String :=
  match v.toJson? sortKeys with
  | some j => .ok (j.write style)
  | none => .error .wrongType

end DocMapper.Value
