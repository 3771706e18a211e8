import DocMapper.Json.Basic
import DocMapper.Number.Digits

/-!
# Reading JSON

A JSON text is one value between blanks.  Beside the standard's numbers the
names of the infinities are read.  The reader takes as many steps as the text
has characters, at most.
-/

namespace DocMapper.Json

def isBlank (c : Char) : Bool := c = ' ' || c = '\n' || c = '\t' || c = '\r'

def skipBlanks (cs : List Char) : List Char := cs.dropWhile isBlank

def hexValue? (c : Char) : Option Nat :=
  if '0' ≤ c ∧ c ≤ '9' then some (c.toNat - '0'.toNat)
  else if 'a' ≤ c ∧ c ≤ 'f' then some (c.toNat - 'a'.toNat + 10)
  else if 'A' ≤ c ∧ c ≤ 'F' then some (c.toNat - 'A'.toNat + 10)
  else none

def hexNumber? (cs : List Char) : Option Nat :=
  cs.foldlM (fun n c => (hexValue? c).map (16 * n + ·)) 0

def simpleEscape? : Char → Option Char
  | '"' => some '"'
  | '\\' => some '\\'
  | '/' => some '/'
  | 'b' => some (Char.ofNat 8)
  | 'f' => some (Char.ofNat 12)
  | 'n' => some '\n'
  | 'r' => some '\r'
  | 't' => some '\t'
  | _ => none

def isHighSurrogate (n : Nat) : Bool := 0xd800 ≤ n && n < 0xdc00
def isLowSurrogate (n : Nat) : Bool := 0xdc00 ≤ n && n < 0xe000

def stringRest : List Char → Option (List Char × List Char)
  | [] => none
  | '"' :: rest => some ([], rest)
  | '\\' :: 'u' :: a :: b :: c :: d :: '\\' :: 'u' :: a' :: b' :: c' :: d' :: rest => do
      let first ← hexNumber? [a, b, c, d]
      match isHighSurrogate first, hexNumber? [a', b', c', d'] with
      | true, some second =>
          if isLowSurrogate second then
            let n := 0x10000 + (first - 0xd800) * 0x400 + (second - 0xdc00)
            let (cs, after) ← stringRest rest
            return (Char.ofNat n :: cs, after)
          else
            let (cs, after) ← stringRest ('\\' :: 'u' :: a' :: b' :: c' :: d' :: rest)
            return (Char.ofNat first :: cs, after)
      | _, _ =>
          let (cs, after) ← stringRest ('\\' :: 'u' :: a' :: b' :: c' :: d' :: rest)
          return (Char.ofNat first :: cs, after)
  | '\\' :: 'u' :: a :: b :: c :: d :: rest => do
      let n ← hexNumber? [a, b, c, d]
      let (cs, after) ← stringRest rest
      return (Char.ofNat n :: cs, after)
  | '\\' :: e :: rest => do
      let c ← simpleEscape? e
      let (cs, after) ← stringRest rest
      return (c :: cs, after)
  | c :: rest =>
      if c.toNat < 32 ∨ c = '\\' then none
      else do
        let (cs, after) ← stringRest rest
        return (c :: cs, after)

/-- A leading zero stands alone. -/
def wholePart : List Char → List Char × List Char
  | '0' :: rest => (['0'], rest)
  | cs => Digits.span cs

def fractionPart : List Char → List Char × List Char
  | '.' :: rest =>
      match Digits.span rest with
      | ([], _) => ([], '.' :: rest)
      | found => found
  | cs => ([], cs)

/-- The value after an exponent mark, if digits follow it. -/
def exponentPart (cs : List Char) : Option Int × List Char :=
  match cs with
  | e :: rest =>
      if e = 'e' ∨ e = 'E' then
        let (negative, unsigned) := Digits.sign rest
        match Digits.span unsigned with
        | ([], _) => (none, cs)
        | (ds, after) =>
            (some (Digits.signed negative (Digits.value ds)), after)
      else (none, cs)
  | [] => (none, [])

/-- A number without its sign. -/
def number? (negative : Bool) (cs : List Char) : Option (Json × List Char) :=
  let (whole, rest) := wholePart cs
  if whole.isEmpty then none
  else
    let (fraction, rest) := fractionPart rest
    let (exponent, rest) := exponentPart rest
    if fraction.isEmpty && exponent.isNone then
      some (.int (Digits.signed negative (Digits.value whole)), rest)
    else
      let place : Int := exponent.getD 0 - fraction.length
      some (.float (.ofDecimal negative (Digits.value (whole ++ fraction)) place), rest)

def afterWord? (word : String) (cs : List Char) : Option (List Char) :=
  if word.toList.isPrefixOf cs then some (cs.drop word.length) else none

def scalar? (cs : List Char) : Option (Json × List Char) :=
  match cs with
  | '"' :: rest => (stringRest rest).map fun (s, after) => (.str (String.ofList s), after)
  | 'n' :: _ => (afterWord? "null" cs).map (Json.null, ·)
  | 't' :: _ => (afterWord? "true" cs).map (Json.bool true, ·)
  | 'f' :: _ => (afterWord? "false" cs).map (Json.bool false, ·)
  | 'I' :: _ => (afterWord? "Infinity" cs).map (Json.float (.infinite false), ·)
  | '-' :: 'I' :: _ => (afterWord? "-Infinity" cs).map (Json.float (.infinite true), ·)
  | '-' :: rest => number? true rest
  | _ => number? false cs

/-! ## Trees -/

mutual

def value? : Nat → List Char → Option (Json × List Char)
  | 0, _ => none
  | steps + 1, cs =>
      match skipBlanks cs with
      | '[' :: rest =>
          match skipBlanks rest with
          | ']' :: after => some (.array [], after)
          | rest => (items? steps rest).map fun (js, after) => (.array js, after)
      | '\x7b' :: rest =>
          match skipBlanks rest with
          | '\x7d' :: after => some (.object [], after)
          | rest => (members? steps rest).map fun (ms, after) => (.object ms, after)
      | cs => scalar? cs

def items? : Nat → List Char → Option (List Json × List Char)
  | 0, _ => none
  | steps + 1, cs => do
      let (j, rest) ← value? steps cs
      match skipBlanks rest with
      | ']' :: after => return ([j], after)
      | ',' :: rest =>
          let (js, after) ← items? steps rest
          return (j :: js, after)
      | _ => none

def members? : Nat → List Char → Option (List (String × Json) × List Char)
  | 0, _ => none
  | steps + 1, cs => do
      let '"' :: rest := skipBlanks cs | none
      let (k, rest) ← stringRest rest
      let ':' :: rest := skipBlanks rest | none
      let (j, rest) ← value? steps rest
      match skipBlanks rest with
      | '\x7d' :: after => return ([(String.ofList k, j)], after)
      | ',' :: rest =>
          let (ms, after) ← members? steps rest
          return ((String.ofList k, j) :: ms, after)
      | _ => none

end

def read? (s : String) : Option Json := do
  let cs := s.toList
  let (j, rest) ← value? (cs.length + 1) cs
  if (skipBlanks rest).isEmpty then some j else none

end DocMapper.Json
