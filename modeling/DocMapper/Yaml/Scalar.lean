import DocMapper.Json.Reader
import DocMapper.Number.Digits
import DocMapper.Value.Basic

/-!
# YAML scalars

A scalar without quotes denotes null, a truth value or a number if it is written
like one, and otherwise the text itself.  A scalar in quotes denotes a text, and
may be broken into lines, which are folded.

What starts with the mark of a block scalar, a tag, an anchor or an alias is not
read, and neither are merge keys, points in time and sexagesimal floats.
-/

namespace DocMapper.Yaml

def nullWords : List String := ["", "~", "null", "Null", "NULL"]

def trueWords : List String :=
  ["yes", "Yes", "YES", "true", "True", "TRUE", "on", "On", "ON"]

def falseWords : List String :=
  ["no", "No", "NO", "false", "False", "FALSE", "off", "Off", "OFF"]

def withoutUnderscores (cs : List Char) : List Char := cs.filter (· != '_')

def inBase? (base : Nat) (cs : List Char) : Option Nat :=
  if cs.isEmpty then none
  else
    (withoutUnderscores cs).foldlM (fun n c => do
      let d ← Json.hexValue? c
      if d < base then return base * n + d else none) 0

/-- Parts between colons, each of which counts sixty of the next. -/
def sexagesimal? (parts : List (List Char)) : Option Nat :=
  match parts with
  | first :: second :: rest => do
      let lead ← inBase? 10 first
      (second :: rest).foldlM (fun n part => do
        let d ← if part.length ≤ 2 && part.all Char.isDigit then inBase? 10 part else none
        if d < 60 then return 60 * n + d else none) lead
  | _ => none

def splitOn (separator : Char) : List Char → List (List Char)
  | [] => [[]]
  | c :: rest =>
      match splitOn separator rest with
      | part :: parts => if c = separator then [] :: part :: parts else (c :: part) :: parts
      | [] => []

/-- An integer without its sign: a leading zero announces base eight, and with a
letter base two or sixteen. -/
def natural? (cs : List Char) : Option Nat :=
  match cs with
  | ['0'] => some 0
  | '0' :: 'b' :: rest => inBase? 2 rest
  | '0' :: 'x' :: rest => inBase? 16 rest
  | '0' :: rest => inBase? 8 rest
  | c :: rest =>
      if c.isDigit then
        match inBase? 10 (c :: rest) with
        | some n => some n
        | none => sexagesimal? (splitOn ':' (c :: rest))
      else none
  | [] => none

def integer? (cs : List Char) : Option Int :=
  let (negative, unsigned) := Digits.sign cs
  (natural? unsigned).map (Digits.signed negative)

def exponent? : List Char → Option Int
  | [] => some 0
  | e :: sign :: rest =>
      if (e = 'e' ∨ e = 'E') ∧ (sign = '-' ∨ sign = '+') then
        match Digits.span rest with
        | ([], _) => none
        | (ds, []) => some (Digits.signed (sign = '-') (Digits.value ds))
        | _ => none
      else none
  | _ => none

def isFloatDigit (c : Char) : Bool := c.isDigit || c = '_'

def infinityWords : List String := [".inf", ".Inf", ".INF"]

/-- A number with a point.  Without digits before the point it has no sign. -/
def float? (cs : List Char) : Option Double := do
  let (negative, unsigned) := Digits.sign cs
  if infinityWords.contains (String.ofList unsigned) then return .infinite negative
  let (whole, '.' :: rest) := unsigned.span isFloatDigit | none
  let (fraction, rest) := rest.span isFloatDigit
  let places := withoutUnderscores fraction
  let startsWell :=
    match whole, fraction with
    | c :: _, _ => c.isDigit
    | [], c :: _ => c.isDigit && unsigned.length == cs.length
    | [], [] => false
  if !startsWell then none
  else
    let exponent ← exponent? rest
    return .ofDecimal negative (Digits.value (withoutUnderscores whole ++ places))
      (exponent - places.length)

/-- A number with a point whose whole part is written in base sixty. -/
def isSexagesimalFloat (cs : List Char) : Bool :=
  match (Digits.sign cs).2.span (· != '.') with
  | (whole, '.' :: places) =>
      whole.head?.any Char.isDigit && (sexagesimal? (splitOn ':' whole)).isSome &&
        places.all isFloatDigit
  | _ => false

def isInlineBlank (c : Char) : Bool := c = ' ' || c = '\t'

/-- What follows the digits at the front of a text, of which there are as many as `most`
or at least `least`. -/
def afterDigits? (least most : Nat) (cs : List Char) : Option (List Char) :=
  let count := ((cs.take most).takeWhile Char.isDigit).length
  if least ≤ count then some (cs.drop count) else none

def afterMark? (mark : Char) : List Char → Option (List Char)
  | c :: rest => if c = mark then some rest else none
  | [] => none

def afterDate? (least : Nat) (cs : List Char) : Option (List Char) := do
  let rest ← afterMark? '-' (← afterDigits? 4 4 cs)
  let rest ← afterMark? '-' (← afterDigits? least 2 rest)
  afterDigits? least 2 rest

def afterTime? (cs : List Char) : Option (List Char) := do
  let rest ← afterMark? ':' (← afterDigits? 1 2 cs)
  let rest ← afterMark? ':' (← afterDigits? 2 2 rest)
  match ← afterDigits? 2 2 rest with
  | '.' :: fraction => return fraction.dropWhile Char.isDigit
  | rest => return rest

def isZone (cs : List Char) : Bool :=
  match cs.dropWhile isInlineBlank with
  | [] | ['Z'] => true
  | sign :: rest =>
      (sign = '-' || sign = '+') &&
        match afterDigits? 1 2 rest with
        | some [] => true
        | some (':' :: minutes) => afterDigits? 2 2 minutes == some []
        | _ => false

def isTimestamp (cs : List Char) : Bool :=
  afterDate? 2 cs == some [] ||
    match afterDate? 1 cs with
    | some (c :: rest) =>
        let time :=
          if c = 'T' || c = 't' then afterTime? rest
          else if isInlineBlank c then afterTime? (rest.dropWhile isInlineBlank)
          else none
        time.any isZone
    | _ => false

def isBreak : Option Char → Bool
  | some c => isInlineBlank c || c = '\n'
  | none => true

def startMarks : List Char :=
  [',', '[', ']', '\x7b', '\x7d', '#', '&', '*', '!', '|', '>', '\'', '"', '%', '@', '\x60', '\t']

/-- A dash, a question mark or a colon starts a scalar if no blank follows it. -/
def startsPlain : List Char → Bool
  | c :: rest => !startMarks.contains c && !(['-', '?', ':'].contains c && isBreak rest.head?)
  | [] => true

/-- Words for a merge key, a default value and what is no number. -/
def reservedWords : List String := ["<<", "=", ".nan", ".NaN", ".NAN"]

def plainScalar? (cs : List Char) : Option Value :=
  let word := String.ofList cs
  if nullWords.contains word then some .null
  else if trueWords.contains word then some (.bool true)
  else if falseWords.contains word then some (.bool false)
  else if !startsPlain cs || reservedWords.contains word then none
  else if isTimestamp cs || isSexagesimalFloat cs then none
  else
    match integer? cs, float? cs with
    | some i, _ => some (.int i)
    | none, some x => some (.float x)
    | none, none => some (.str word)

/-! ## Quotes -/

/-- A break between two lines of a scalar: one line end is a blank, and each
further one stands for itself.  `ends` counts the line ends so far. -/
def foldBreak : Nat → List Char → List Char × List Char
  | ends, c :: rest =>
      if c = '\n' then foldBreak (ends + 1) rest
      else if isInlineBlank c then foldBreak ends rest
      else (if ends = 1 then [' '] else List.replicate (ends - 1) '\n', c :: rest)
  | ends, [] => (if ends = 1 then [' '] else List.replicate (ends - 1) '\n', [])

def escapes : List (Char × Nat) :=
  [('0', 0), ('a', 7), ('b', 8), ('t', 9), ('\t', 9), ('n', 10), ('v', 11), ('f', 12), ('r', 13),
    ('e', 27), (' ', 32), ('"', 34), ('/', 47), ('\\', 92), ('N', 0x85), ('_', 0xa0),
    ('L', 0x2028), ('P', 0x2029)]

def escapeWidth? : Char → Option Nat
  | 'x' => some 2
  | 'u' => some 4
  | 'U' => some 8
  | _ => none

/-- The blanks at the front of a text that a line end follows, and what follows
that line end. -/
def lineEnd? (cs : List Char) : Option (List Char) :=
  match cs.dropWhile isInlineBlank with
  | '\n' :: rest => some rest
  | _ => none

/-- The number of the character that an escape stands for, after its backslash,
and what follows the escape. -/
def escape? (c : Char) (rest : List Char) : Option (Nat × List Char) :=
  match escapes.lookup c, escapeWidth? c with
  | some n, _ => some (n, rest)
  | none, some width =>
      if rest.length < width then none
      else (Json.hexNumber? (rest.take width)).map fun n => (n, rest.drop width)
  | none, none => none

/-- The text in double quotes, after the opening one, and what follows the
closing one.  Every step reads at least one character. -/
def doubleQuoted? : Nat → List Char → Option (List Char × List Char)
  | 0, _ => none
  | _ + 1, [] => none
  | _ + 1, '"' :: rest => some ([], rest)
  | steps + 1, '\\' :: '\n' :: rest => doubleQuoted? steps (rest.dropWhile isInlineBlank)
  | steps + 1, '\\' :: c :: rest => do
      let (n, rest) ← escape? c rest
      let (cs, after) ← doubleQuoted? steps rest
      return (Char.ofNat n :: cs, after)
  | steps + 1, c :: rest => do
      match lineEnd? (c :: rest) with
      | some rest =>
          let (between, rest) := foldBreak 1 rest
          let (cs, after) ← doubleQuoted? steps rest
          return (between ++ cs, after)
      | none =>
          let (cs, after) ← doubleQuoted? steps rest
          return (c :: cs, after)

/-- The text in single quotes; a quote inside it is written twice. -/
def singleQuoted? : Nat → List Char → Option (List Char × List Char)
  | 0, _ => none
  | _ + 1, [] => none
  | steps + 1, '\'' :: '\'' :: rest => do
      let (cs, after) ← singleQuoted? steps rest
      return ('\'' :: cs, after)
  | _ + 1, '\'' :: rest => some ([], rest)
  | steps + 1, c :: rest => do
      match lineEnd? (c :: rest) with
      | some rest =>
          let (between, rest) := foldBreak 1 rest
          let (cs, after) ← singleQuoted? steps rest
          return (between ++ cs, after)
      | none =>
          let (cs, after) ← singleQuoted? steps rest
          return (c :: cs, after)

/-- A scalar in quotes at the front of a text, and what follows it. -/
def quotedScalar? (cs : List Char) : Option (Value × List Char) :=
  let read :=
    match cs with
    | '"' :: rest => doubleQuoted? cs.length rest
    | '\'' :: rest => singleQuoted? cs.length rest
    | _ => none
  read.map fun (text, rest) => (.str (String.ofList text), rest)

end DocMapper.Yaml
