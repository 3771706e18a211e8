import DocMapper.Failure
import DocMapper.Number.Written
import DocMapper.Text.LowerCase

/-!
# Sources of settings

A setting is given by the program, or else by a variable of the environment, or
else has a default.  Settings are read one by one, so that all that are refused
are reported together.
-/

namespace DocMapper

/-- The variables of the environment are named by a common beginning and the
name of the setting, in any case. -/
structure Source where
  given : List (String × Value)
  environment : List (String × String)
  /-- In lower case. -/
  variableStart : String

abbrev Reading := Except SettingTrouble

namespace Source

/-- Of variables whose names differ only in case, the last one counts. -/
def fromEnvironment? (source : Source) (name : String) : Option Value :=
  (source.environment.reverse.find? fun v =>
    Text.lower v.1 == source.variableStart ++ name).map fun v => .str v.2

def raw? (source : Source) (name : String) : Option Value :=
  match source.given.find? fun g => g.1 == name with
  | some (_, value) => some value
  | none => source.fromEnvironment? name

def read {α : Type} (source : Source) (name : String) (reader : Value → Reading α)
    (default : α) : Reading α :=
  match source.raw? name with
  | some value => reader value
  | none => .ok default

def problems {α : Type} (name : String) : Reading α → List SettingProblem
  | .ok _ => []
  | .error trouble => [⟨name, trouble⟩]

/-- Given values that are not settings.  Variables of the environment may have
any other names. -/
def unknown (source : Source) (names : List String) : List SettingProblem :=
  (source.given.filter fun g => !names.contains g.1).map fun g => ⟨g.1, .unknownName⟩

end Source

namespace Reading

def text : Value → Reading String
  | .str s => .ok s
  | _ => .error .notText

def optionalText : Value → Reading (Option String)
  | .null => .ok none
  | v => some <$> text v

/-- A number; an integer that no double can hold is none. -/
def number : Value → Reading Double
  | .float x => .ok x
  | .bool b => .ok (.ofInt (if b then 1 else 0))
  | .int i =>
      match Double.ofInt i with
      | .infinite _ => .error .notNumber
      | x => .ok x
  | .str s =>
      match Written.decimal? s with
      | some x => .ok x
      | none => .error .unreadableNumber
  | _ => .error .notNumber

def whole : Value → Reading Int
  | .int i => .ok i
  | .bool b => .ok (if b then 1 else 0)
  | .float (.infinite _) => .error .notFinite
  | .float x =>
      match x.whole? with
      | some i => .ok i
      | none => .error .fractionLost
  | .str s =>
      match Written.whole? s with
      | some i => .ok i
      | none => .error .unreadableWhole
  | _ => .error .notWhole

def positive (v : Value) : Reading Int := do
  let i ← whole v
  if i < 1 then .error .tooSmall else return i

end Reading

end DocMapper
