/-
What a step reports while it runs: messages with a level, in the order in which they were reported.
-/

namespace Classwright

inductive Level where
  | debug
  | info
  | warning
  | error
  | critical
  deriving DecidableEq, Repr

namespace Level

def all : List Level := [.debug, .info, .warning, .error, .critical]

def name : Level → String
  | .debug => "DEBUG"
  | .info => "INFO"
  | .warning => "WARNING"
  | .error => "ERROR"
  | .critical => "CRITICAL"

/-- the rank by which levels are compared -/
def rank : Level → Nat
  | .debug => 10
  | .info => 20
  | .warning => 30
  | .error => 40
  | .critical => 50

def ofName? (s : String) : Option Level := all.find? fun l => l.name == s

end Level

structure LogEntry where
  level : Level
  message : String
  deriving DecidableEq, Repr

abbrev Log := List LogEntry

def LogEntry.debug (message : String) : LogEntry := ⟨.debug, message⟩

def LogEntry.info (message : String) : LogEntry := ⟨.info, message⟩

def LogEntry.warning (message : String) : LogEntry := ⟨.warning, message⟩

end Classwright
