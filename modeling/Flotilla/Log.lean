namespace Flotilla.Log

inductive Level
  | info
  | warning
  | error
  deriving DecidableEq, Repr

def Level.code : Level → Nat
  | info => 20
  | warning => 30
  | error => 40

def Level.name : Level → String
  | info => "INFO"
  | warning => "WARNING"
  | error => "ERROR"

/-- What the log lets through. Without a threshold of its own it takes the surrounding one. -/
inductive Threshold
  | notSet
  | debug
  | info
  | warning
  | error
  | critical
  deriving DecidableEq, Repr

namespace Threshold

def all : List Threshold := [notSet, debug, info, warning, error, critical]

def name : Threshold → String
  | notSet => "notset"
  | debug => "debug"
  | info => "info"
  | warning => "warning"
  | error => "error"
  | critical => "critical"

def code : Threshold → Nat
  | notSet => 0
  | debug => 10
  | info => 20
  | warning => 30
  | error => 40
  | critical => 50

def effective (t : Threshold) : Nat := if t = notSet then warning.code else t.code

end Threshold

structure Record where
  level : Level
  text : String
  deriving DecidableEq, Repr

def Record.passes (t : Threshold) (r : Record) : Bool := t.effective ≤ r.level.code

def info (text : String) : Record := ⟨.info, text⟩
def warning (text : String) : Record := ⟨.warning, text⟩
def error (text : String) : Record := ⟨.error, text⟩

end Flotilla.Log
