import DocMapper.Text.Utf8
import DocMapper.Yaml.Flow

/-!
# YAML in lines

Nesting is shown by indentation: the items of a list start with a dash, and the
entries of a map with a key and a colon.  A comment runs from a `#` at the start
of a word to the end of the line.  Lines inside brackets and quotes belong to the
line in which these were opened.  Three dashes may mark the start of a document,
and three points its end; there is one document.
-/

namespace DocMapper.Yaml

structure Line where
  number : Nat
  indent : Nat
  text : List Char
  deriving DecidableEq, Repr

/-- The state of reading lines: the finished ones and the current one, both
backwards; the open quote; whether its next character is escaped; the number of
open brackets; whether a scalar may start; and whether a comment runs. -/
structure LineScan where
  finished : List (List Char)
  current : List Char
  quote : Option Char
  escaped : Bool
  depth : Nat
  fresh : Bool
  comment : Bool
  deriving DecidableEq, Repr

namespace LineScan

def start : LineScan := ⟨[], [], none, false, 0, true, false⟩

def push (s : LineScan) (c : Char) (fresh : Bool) : LineScan :=
  { s with current := c :: s.current, fresh := fresh }

/-- A line end ends the line, unless brackets are open. -/
def lineEnd (s : LineScan) : LineScan :=
  if s.depth = 0 then
    { s with finished := s.current :: s.finished, current := [], fresh := true, comment := false }
  else { s with current := '\n' :: s.current, comment := false }

def quoted (s : LineScan) (quote c : Char) (next : Option Char) : LineScan :=
  let pushed := s.push c false
  if s.escaped then { pushed with escaped := false }
  else if quote = '"' ∧ c = '\\' ∨ quote = '\'' ∧ c = '\'' ∧ next = some '\'' then
    { pushed with escaped := true }
  else if c = quote then { pushed with quote := none }
  else pushed

def atWordStart (s : LineScan) : Bool := isBreak s.current.head?

def plain (s : LineScan) (c : Char) (next : Option Char) : LineScan :=
  if c = '\n' then s.lineEnd
  else if c = '#' && (s.atWordStart || s.fresh) then { s with comment := true }
  else if isInlineBlank c then s.push c s.fresh
  else if c = ':' && isBreak next then s.push c true
  else if c = '-' && s.fresh && isBreak next then s.push c true
  else if (c = '[' || c = '\x7b') && (s.fresh || 0 < s.depth) then
    { s.push c true with depth := s.depth + 1 }
  else if (c = ']' || c = '\x7d') && 0 < s.depth then
    { s.push c false with depth := s.depth - 1 }
  else if c = ',' && 0 < s.depth then s.push c true
  else if c = ':' && 0 < s.depth then s.push c true
  else if (c = '"' || c = '\'') && s.fresh then { s.push c false with quote := some c }
  else s.push c false

def step (s : LineScan) (c : Char) (next : Option Char) : LineScan :=
  match s.quote with
  | some quote => s.quoted quote c next
  | none =>
      if s.comment then (if c = '\n' then s.lineEnd else s)
      else s.plain c next

def run (s : LineScan) : List Char → LineScan
  | [] => { s with depth := 0 }.lineEnd
  | c :: rest => (s.step c rest.head?).run rest

end LineScan

def lineOf (backwards : List Char) (number : Nat) : Line :=
  let cs := (backwards.dropWhile isInlineBlank).reverse
  let (blanks, text) := cs.span (· == ' ')
  ⟨number, blanks.length, text⟩

/-- A line ends with a line feed, a carriage return, or both. -/
def withLineFeeds : List Char → List Char
  | '\r' :: '\n' :: rest => '\n' :: withLineFeeds rest
  | '\r' :: rest => '\n' :: withLineFeeds rest
  | c :: rest => c :: withLineFeeds rest
  | [] => []

def linesOf (text : List Char) : List Line :=
  ((LineScan.start.run text).finished.reverse.zipIdx.map fun (cs, number) =>
    lineOf cs number).filter fun l => !l.text.isEmpty

def startMark : List Char := ['-', '-', '-']
def endMark : List Char := ['.', '.', '.']

def Line.afterMark? (line : Line) (mark : List Char) : Option Line :=
  let rest := line.text.drop mark.length
  if line.indent = 0 && mark.isPrefixOf line.text && isBreak rest.head? then
    let (blanks, text) := rest.span isInlineBlank
    some ⟨line.number, mark.length + blanks.length, text⟩
  else none

def withoutStart : List Line → List Line
  | [] => []
  | first :: rest =>
      match first.afterMark? startMark with
      | none => first :: rest
      | some inner => if inner.text.isEmpty then rest else inner :: rest

def Line.isEnd (line : Line) : Bool := (line.afterMark? endMark).any (·.text.isEmpty)

/-- The lines of the only document. -/
def document? (lines : List Line) : Option (List Line) :=
  let (inside, after) := lines.span fun l => (l.afterMark? endMark).isNone
  let inside := withoutStart inside
  if after.all Line.isEnd && inside.all fun l => (l.afterMark? startMark).isNone then some inside
  else none

/-- What follows the dash of a list item, with the place where it starts. -/
def Line.afterDash? (line : Line) : Option Line :=
  match line.text with
  | '-' :: rest =>
      let (blanks, text) := rest.span isInlineBlank
      if text.isEmpty || !blanks.isEmpty then
        some ⟨line.number, line.indent + 1 + blanks.length, text⟩
      else none
  | _ => none

def splitKey? (text : List Char) : Option (Value × List Char) :=
  match text with
  | '[' :: _ | '\x7b' :: _ => none
  | '"' :: _ | '\'' :: _ => do
      let (key, rest) ← quotedScalar? text
      let rest ← afterColon? rest
      if isBreak rest.head? then return (key, skipBlanks rest) else none
  | text => do
      let (key, rest) ← splitAtColon? text
      return (← plainScalar? (withoutEndBlanks key), skipBlanks rest)

/-! ## Blocks -/

/-- Lines grouped under those that pass a test.  Lines before the first of these
are left out. -/
def groupUnder (isHead : Line → Bool) : List Line → List (Line × List Line)
  | [] => []
  | line :: rest =>
      if isHead line then (line, rest.takeWhile fun l => !isHead l) :: groupUnder isHead rest
      else groupUnder isHead rest

/-- The text of lines that follow each other. -/
def joined? : List Line → Option (List Char)
  | [] => some []
  | [line] => some line.text
  | line :: next :: rest =>
      if next.number = line.number + 1 then
        (joined? (next :: rest)).map fun text => line.text ++ ' ' :: text
      else none

mutual

def blockValue? : Nat → List Line → Option Value
  | _, [] => some .null
  | 0, _ => none
  | steps + 1, first :: rest =>
      let lines := first :: rest
      let aligned := rest.all fun l => first.indent ≤ l.indent
      if first.afterDash?.isSome then
        if aligned then
          (blockItems? steps (groupUnder (fun l => l.indent == first.indent) lines)).map .list
        else none
      else if (splitKey? first.text).isSome then
        if aligned then
          let isHead (l : Line) := l.indent == first.indent && l.afterDash?.isNone
          (blockEntries? steps (groupUnder isHead lines)).map fun entries =>
            .map (Keyed.ofPairs entries)
        else none
      else (joined? lines).bind inlineValue?

def blockItems? : Nat → List (Line × List Line) → Option (List Value)
  | _, [] => some []
  | 0, _ => none
  | steps + 1, (head, body) :: rest => do
      let inner ← head.afterDash?
      let item ← blockValue? steps (if inner.text.isEmpty then body else inner :: body)
      return item :: (← blockItems? steps rest)

def blockEntries? : Nat → List (Line × List Line) → Option (List (Value × Value))
  | _, [] => some []
  | 0, _ => none
  | steps + 1, (head, body) :: rest => do
      let (key, inline) ← splitKey? head.text
      let value ←
        if inline.isEmpty then blockValue? steps body
        else if body.all fun l => head.indent < l.indent then
          (joined? (⟨head.number, head.indent, inline⟩ :: body)).bind inlineValue?
        else none
      return (key, value) :: (← blockEntries? steps rest)

end

/-- Further characters that end a line. -/
def otherLineEnds : List Char := ['\u0085', '\u2028', '\u2029']

def read? (text : String) : Option Value := do
  let text := withLineFeeds (Text.withoutByteOrderMark text.toList)
  if text.any otherLineEnds.contains then none
  else blockValue? (2 * text.length + 2) (← document? (linesOf text))

end DocMapper.Yaml
