import Flotilla.Command
import Flotilla.Table

namespace Flotilla.Executor

structure Task where
  key : String
  host : String
  command : Command.Given
  deriving DecidableEq, Repr

/-- There is no return code if the command never came to an end. -/
structure Result where
  key : String
  host : Option String
  returnCode : Option Int
  stdout : Option String
  stderr : Option String
  error : Option String
  deriving DecidableEq, Repr

abbrev Results := Table String Result

def codeText : Option Int → String
  | some c => toString c
  | none => "None"

namespace Result

def isOk (r : Result) : Bool := r.error.isNone && r.returnCode == some 0

def failed (t : Task) (why : String) : Result := ⟨t.key, some t.host, none, some "", some "", some why⟩

end Result

end Flotilla.Executor
