import Flotilla.Fault

namespace Flotilla

/-- A file for the host, from a text or from a file here; the text is taken if both are given. -/
structure Upload where
  remote : String
  file : Option String
  content : Option String
  deriving DecidableEq, Repr

structure Command where
  line : String
  asSudo : Bool := false
  uploads : List Upload := []
  timeout : Option Value := none
  deriving DecidableEq, Repr

namespace Command

/-- What a caller hands over as a command. -/
inductive Given
  | line (s : String)
  | command (c : Command)
  | other
  deriving DecidableEq, Repr

def Given.read : Given → Except Fault Command
  | .line s => .ok { line := s }
  | .command c => .ok c
  | .other => .error (.value .command)

/-- File transfer knows no tilde: paths below the home directory are given relative to it. -/
def remotePath (path : String) : String :=
  match path.toList with
  | '~' :: '/' :: r => String.ofList r
  | _ => path

end Command
end Flotilla
