import DocMapper.Value.Keyed

/-!
# Log records

What an operation reports while it runs: a level, the logger that reports, a
message, and named extra values.
-/

namespace DocMapper

inductive Level where
  | debug
  | info
  | warning
  | error
  | critical
  deriving DecidableEq, Repr

namespace Level

def name : Level → String
  | .debug => "DEBUG"
  | .info => "INFO"
  | .warning => "WARNING"
  | .error => "ERROR"
  | .critical => "CRITICAL"

def number : Level → Nat
  | .debug => 10
  | .info => 20
  | .warning => 30
  | .error => 40
  | .critical => 50

def every : List Level := [.debug, .info, .warning, .error, .critical]

def ofName? (name : String) : Option Level := every.find? fun level => level.name == name

theorem ofName?_name (level : Level) : ofName? level.name = some level := by
  cases level <;> decide

end Level

structure LogRecord where
  level : Level
  logger : String
  message : String
  extra : List (String × Value)
  deriving BEq, Repr

end DocMapper
