import Flotilla.Executor.Single
import Flotilla.Fleet.Basic
import Flotilla.Unit

namespace Flotilla.Probe

def activeText : String := "active"

def saysActive (returnCode : Option Int) (stdout : String) : Bool :=
  returnCode == some 0 && Text.trim stdout == activeText

/-- Settings of a probe of one unit; the file of connection settings may be in the home directory. -/
structure Settings where
  sshConfig : Value := .text Defaults.sshConfigFile
  user : Option Value := none
  identity : Value := .null
  timeout : Option Value := some (.num (.int Defaults.probeTimeout))
  deriving Repr

def unitIsActive (n : Node) (unit : String) (s : Settings) : Run Bool := do
  let d := (← get).disk
  let config ← if s.sshConfig.isTruthy then Value.text <$> Run.lift (d.expand s.sshConfig)
    else pure s.sshConfig
  let _ ← Run.lift (Executor.Single.ofSettings d config)
  let a ← Executor.Single.execute n.address (.command (Unit.isActive unit)) s.user s.identity s.timeout
  match a.stdout with
  | some stdout => return saysActive a.returnCode stdout
  | none => throw (.noMemberOf Value.null.kindName "strip")

def label : String := "status"

def tasks (f : Fleet) : List Executor.Task :=
  f.instances.map fun i => ⟨i.key, i.node.address, .command (Unit.isActive i.name)⟩

def resultIsActive (r : Executor.Result) : Bool := saysActive r.returnCode (r.stdout.getD "")

def activityLine (key : String) (isActive : Bool) : Log.Record :=
  Log.info (key ++ ": " ++ (if isActive then activeText else "not " ++ activeText))

def enterActivity (results : Executor.Results) (t : Table String Bool) (i : Instance) :
    Run (Table String Bool) := do
  match results.get? i.key with
  | none => throw (.unknownKey i.key)
  | some r =>
    Run.log (activityLine i.key (resultIsActive r))
    return t.put i.key (resultIsActive r)

def unitsAreActive (f : Fleet) (e : Executor) : Run (Table String Bool) := do
  let results ← e.execute (some label) (tasks f)
  f.instances.foldlM (enterActivity results) .empty

def bootstrapIsReachable (f : Fleet) (timeout : Option Value) : Run Bool := do
  match Text.splitLast ':' f.topology.bootstrapSocket with
  | none => throw (.value .noPort)
  | some (host, port) =>
    match Number.read port with
    | .error why => throw (.value (.unreadable why))
    | .ok n =>
      modify fun s => { s with attempts := s.attempts ++ [⟨host, n, timeout⟩] }
      return (← get).unreachable.isNone

end Flotilla.Probe
