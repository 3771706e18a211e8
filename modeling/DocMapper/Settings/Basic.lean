import DocMapper.Logging.Record
import DocMapper.Settings.Source

/-!
# Settings

How the store is reached, and what is logged.  The password is never part of
what is logged.
-/

namespace DocMapper

structure StoreSettings where
  url : String
  username : Option String
  password : Option String
  /-- Seconds to wait for an answer. -/
  timeout : Double
  maxConnections : Int
  /-- Seconds to wait for a free connection. -/
  poolTimeout : Double
  /-- Stands before the name of every database. -/
  databasePrefix : String
  deriving DecidableEq, Repr

namespace StoreSettings

def defaults : StoreSettings :=
  ⟨"http://localhost:5984", none, none, .ofInt 30, 5, .ofInt 2, ""⟩

def names : List String :=
  ["url", "username", "password", "timeout", "max_connections", "pool_timeout",
    "database_prefix"]

def variableStart : String := "couchview_"

def read (given : List (String × Value)) (environment : List (String × String)) :
    Outcome StoreSettings :=
  let source : Source := ⟨given, environment, variableStart⟩
  let url := source.read "url" Reading.text defaults.url
  let username := source.read "username" Reading.optionalText defaults.username
  let password := source.read "password" Reading.optionalText defaults.password
  let timeout := source.read "timeout" Reading.number defaults.timeout
  let maxConnections := source.read "max_connections" Reading.positive defaults.maxConnections
  let poolTimeout := source.read "pool_timeout" Reading.number defaults.poolTimeout
  let databasePrefix := source.read "database_prefix" Reading.text defaults.databasePrefix
  match url, username, password, timeout, maxConnections, poolTimeout, databasePrefix,
      source.unknown names with
  | .ok url, .ok username, .ok password, .ok timeout, .ok maxConnections, .ok poolTimeout,
      .ok databasePrefix, [] =>
      .ok ⟨url, username, password, timeout, maxConnections, poolTimeout, databasePrefix⟩
  | url, username, password, timeout, maxConnections, poolTimeout, databasePrefix, unknown =>
      .error (.badSettings (Source.problems "url" url ++ Source.problems "username" username ++
        Source.problems "password" password ++ Source.problems "timeout" timeout ++
        Source.problems "max_connections" maxConnections ++
        Source.problems "pool_timeout" poolTimeout ++
        Source.problems "database_prefix" databasePrefix ++ unknown))

/-- User and password, if a user is set; a missing password is empty. -/
def credentials? (settings : StoreSettings) : Option (String × String) :=
  settings.username.map fun username => (username, settings.password.getD "")

def databaseName (settings : StoreSettings) (source : Value) : String :=
  settings.databasePrefix ++ source.text

end StoreSettings

/-! ## Logging -/

inductive LogFormat where
  | text
  | json
  deriving DecidableEq, Repr

structure LogSettings where
  level : Level
  format : LogFormat
  deriving DecidableEq, Repr

namespace LogFormat

def name : LogFormat → String
  | .text => "text"
  | .json => "json"

def read : Value → Reading LogFormat
  | .str "text" => .ok .text
  | .str "json" => .ok .json
  | _ => .error .notAmong

end LogFormat

/-- A letter of a level's name may be small; a dotless small i is one too. -/
def capital (c : Char) : Char := if c = 'ı' then 'I' else c.toUpper

def Level.read : Value → Reading Level
  | .str s =>
      match Level.ofName? (String.ofList (s.toList.map capital)) with
      | some level => .ok level
      | none => .error (.invalid ("Invalid log level '" ++ s ++ "'"))
  | _ => .error .notText

namespace LogSettings

def defaults : LogSettings := ⟨.info, .text⟩

def names : List String := ["level", "format"]

def variableStart : String := "couchview_log_"

def read (given : List (String × Value)) (environment : List (String × String)) :
    Outcome LogSettings :=
  let source : Source := ⟨given, environment, variableStart⟩
  let level := source.read "level" Level.read defaults.level
  let format := source.read "format" LogFormat.read defaults.format
  match level, format, source.unknown names with
  | .ok level, .ok format, [] => .ok ⟨level, format⟩
  | level, format, unknown =>
      .error (.badSettings
        (Source.problems "level" level ++ Source.problems "format" format ++ unknown))

end LogSettings

structure Settings where
  store : StoreSettings
  logging : LogSettings
  deriving DecidableEq, Repr

namespace Settings

/-- The settings of the store are read, and may fail, before those of logging. -/
def read (store logging : List (String × Value)) (environment : List (String × String)) :
    Outcome Settings := do
  return ⟨← StoreSettings.read store environment, ← LogSettings.read logging environment⟩

def textOrNull (s : Option String) : Value := .ofOption (s.map .str)

def loaded (settings : Settings) : LogRecord :=
  ⟨.info, "couchview.config", "couchview configuration loaded",
    [("store_url", .str settings.store.url), ("store_user", textOrNull settings.store.username),
      ("max_connections", .int settings.store.maxConnections),
      ("timeout", .float settings.store.timeout),
      ("database_prefix", .str settings.store.databasePrefix),
      ("log_level", .str settings.logging.level.name)]⟩

end Settings

end DocMapper
