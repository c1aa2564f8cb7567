import Flotilla.Command
import Flotilla.Fleet.Basic

namespace Flotilla.Deploy

structure Stage where
  name : String
  dependsOn : List String
  skippable : Bool
  deriving DecidableEq, Repr

namespace Stage

def checkAfter (seen : List String) : List Stage → Except Fault Unit
  | [] => .ok ()
  | s :: r =>
    if seen.contains s.name then .error (.misconfigured (.repeatedStage s.name))
    else match s.dependsOn.find? fun d => !seen.contains d with
      | some d => .error (.misconfigured (.dependency s.name d))
      | none => checkAfter (seen ++ [s.name]) r

def check (stages : List Stage) : Except Fault Unit := checkAfter [] stages

end Stage
end Flotilla.Deploy
