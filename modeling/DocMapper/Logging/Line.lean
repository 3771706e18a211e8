import DocMapper.Json.Writer
import DocMapper.Settings.Basic
import DocMapper.Value.Display

/-!
# Log lines

How a record is written: as a line of text, or as a JSON object that holds the
extra values of the record beside its message, level and logger.  The time that
leads a line, or stands among the members, is not the record's.
-/

namespace DocMapper

def wholeText (v : Value) : Outcome String :=
  match v with
  | .int i => .ok (toString i)
  | .bool b => .ok (if b then "1" else "0")
  | .float x =>
      match x.truncated? with
      | some i => .ok (toString i)
      | none => .error (.misuse .wrongValue)
  | _ => .error .wrongType

/-- A template with its marks replaced by the arguments, one after the other:
`%d` by a whole number, `%s` by a text, `%r` by a displayed value.  All arguments
have to be used. -/
def fillIn : List Char → List Value → Outcome (List Char)
  | [], [] => .ok []
  | [], _ :: _ => .error .wrongType
  | '%' :: '%' :: rest, args => do return '%' :: (← fillIn rest args)
  | '%' :: 'd' :: rest, arg :: args => do
      return (← wholeText arg).toList ++ (← fillIn rest args)
  | '%' :: 's' :: rest, arg :: args => do return arg.text.toList ++ (← fillIn rest args)
  | '%' :: 'r' :: rest, arg :: args => do return arg.display.toList ++ (← fillIn rest args)
  | '%' :: 'd' :: _, [] | '%' :: 's' :: _, [] | '%' :: 'r' :: _, [] => .error .wrongType
  | '%' :: _, _ => .error (.misuse .wrongValue)
  | c :: rest, args => do return c :: (← fillIn rest args)

def messageOf (template : String) (args : List Value) : Outcome String :=
  if args.isEmpty then .ok template
  else String.ofList <$> fillIn template.toList args

namespace LogRecord

def textLine (record : LogRecord) : String :=
  record.logger ++ " - " ++ record.level.name ++ " - " ++ record.message

/-- The record's own members count before extra ones of the same name. -/
def members (record : LogRecord) : Entries :=
  Keyed.update (Keyed.ofPairs (record.extra.map fun e => (.str e.1, e.2)))
    [(.str "message", .str record.message), (.str "level", .str record.level.name),
      (.str "logger", .str record.logger)]

end LogRecord

structure LogSetup where
  rootLevel : Level
  transportLevel : Level
  format : LogFormat
  deriving DecidableEq, Repr

def LogSettings.setup (settings : LogSettings) : LogSetup :=
  ⟨settings.level, .warning, settings.format⟩

end DocMapper
