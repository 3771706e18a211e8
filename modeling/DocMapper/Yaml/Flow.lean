import DocMapper.Value.Keyed
import DocMapper.Yaml.Scalar

/-!
# YAML in brackets

Lists and maps in brackets, as in JSON, but with scalars that need no quotes.
Line ends inside brackets are blanks, and end such a scalar.
-/

namespace DocMapper.Yaml

def skipBlanks (cs : List Char) : List Char := cs.dropWhile fun c => isBreak (some c)

def flowMarks : List Char := [',', '[', ']', '\x7b', '\x7d']

def endsKey : List Char → Bool
  | [] => true
  | c :: _ => isBreak (some c) || flowMarks.contains c

def plainChars : List Char → List Char × List Char
  | [] => ([], [])
  | c :: rest =>
      if flowMarks.contains c || c = '?' || c = '\n' || (c = ':' && endsKey rest) then
        ([], c :: rest)
      else
        let (cs, after) := plainChars rest
        (c :: cs, after)

def withoutEndBlanks (cs : List Char) : List Char :=
  (cs.reverse.dropWhile isInlineBlank).reverse

/-- A scalar without quotes at the front of a text, and what follows it. -/
def flowScalar? (cs : List Char) : Option (Value × List Char) :=
  let (plain, after) := plainChars cs
  match plain with
  | [] | ':' :: _ => none
  | _ => (plainScalar? (withoutEndBlanks plain)).map fun value => (value, after)

def afterColon? (cs : List Char) : Option (List Char) :=
  match skipBlanks cs with
  | ':' :: rest => some rest
  | _ => none

/-- A value may be left out between its key and the next mark. -/
def isLeftOut (cs : List Char) : Bool :=
  match skipBlanks cs with
  | c :: _ => c = ',' || c = ']' || c = '\x7d'
  | [] => true

mutual

def flowValue? : Nat → List Char → Option (Value × List Char)
  | 0, _ => none
  | steps + 1, cs =>
      match skipBlanks cs with
      | '[' :: rest => (flowItems? steps rest).map fun (items, after) => (.list items, after)
      | '\x7b' :: rest =>
          (flowMembers? steps rest).map fun (members, after) =>
            (.map (Keyed.ofPairs members), after)
      | '"' :: rest => quotedScalar? ('"' :: rest)
      | '\'' :: rest => quotedScalar? ('\'' :: rest)
      | cs => flowScalar? cs

def flowPair? : Nat → List Char → Option (Value × Option Value × List Char)
  | 0, _ => none
  | steps + 1, cs => do
      let (key, rest) ← flowValue? steps cs
      match afterColon? rest with
      | some rest =>
          if !key.hashable then none
          else if isLeftOut rest then return (key, some .null, rest)
          else
            let (value, rest) ← flowValue? steps rest
            return (key, some value, rest)
      | none => return (key, none, rest)

/-- The items of a list after its opening bracket.  An item that is a key with a
value is a map. -/
def flowItems? : Nat → List Char → Option (List Value × List Char)
  | 0, _ => none
  | steps + 1, cs =>
      match skipBlanks cs with
      | ']' :: after => some ([], after)
      | cs => do
          let (key, value, rest) ← flowPair? steps cs
          let item := match value with
            | some value => Value.map [(key, value)]
            | none => key
          match skipBlanks rest with
          | ']' :: after => return ([item], after)
          | ',' :: rest =>
              let (items, after) ← flowItems? steps rest
              return (item :: items, after)
          | _ => none

def flowMembers? : Nat → List Char → Option (List (Value × Value) × List Char)
  | 0, _ => none
  | steps + 1, cs =>
      match skipBlanks cs with
      | '\x7d' :: after => some ([], after)
      | cs => do
          let (key, value, rest) ← flowPair? steps cs
          let member := (key, Value.ofOption value)
          if !key.hashable then none
          match skipBlanks rest with
          | '\x7d' :: after => return ([member], after)
          | ',' :: rest =>
              let (members, after) ← flowMembers? steps rest
              return (member :: members, after)
          | _ => none

end

/-- The text up to the first colon that announces a value, and what follows it. -/
def splitAtColon? : List Char → Option (List Char × List Char)
  | [] => none
  | c :: rest =>
      if c = ':' && isBreak rest.head? then some ([], rest)
      else (splitAtColon? rest).map fun (key, after) => (c :: key, after)

/-- The value of a text that stands behind a key or a dash: one in brackets or in
quotes, or a scalar without quotes, in which no key may stand. -/
def inlineValue? (cs : List Char) : Option Value :=
  let read :=
    match cs with
    | '[' :: _ | '\x7b' :: _ => flowValue? (2 * cs.length + 2) cs
    | '"' :: _ | '\'' :: _ => quotedScalar? cs
    | cs => if (splitAtColon? cs).isSome then none else (plainScalar? cs).map fun v => (v, [])
  match read with
  | some (value, rest) => if (skipBlanks rest).isEmpty then some value else none
  | none => none

end DocMapper.Yaml
