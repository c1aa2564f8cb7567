import Flotilla.CommandLine.Options
import Flotilla.Deploy.Pipeline
import Flotilla.Lifecycle.Controller
import Flotilla.Manifest
import Flotilla.Probe
import Flotilla.Report.Document

/-! The program: options to a scenario, an action on its fleet, and the report of it. Failures of
hosts make the code one; so do settings that describe no scenario. -/
namespace Flotilla.CommandLine

/-- How the program ends: by itself with a code, or by the reading of its command line. -/
structure Ending where
  code : Nat
  isRefusal : Bool
  complaint : String
  deriving DecidableEq, Repr

namespace Program

def finished (code : Nat) : Ending := ⟨code, false, ""⟩

def complaint (name why : String) : String := s!"{name}: error: {why}"

def log (r : Log.Record) : Run Unit := Run.log r

/-- Runs something; of what goes wrong, only what `catches` takes is dealt with here. -/
def attempt (x : Run α) (catches : Fault → Bool) (recover : Fault → Run α) : Run α :=
  tryCatch x fun f => if catches f then recover f else throw f

def file? : Value → Option String
  | .text p => if p.isEmpty then none else some p
  | _ => none

def openLog (o : Options) : Run Unit := do
  modify fun s => { s with threshold := o.logLevel }
  match file? o.logFile with
  | none => pure ()
  | some path =>
    let d := (← get).disk
    let path := Files.normalize (d.absolute path)
    if d.isClosed path then throw (.file (.notPermitted path))
    if d.isFile path then pure () else Run.writeFile path (.file "")

def setUp (o : Options) : Run Unit :=
  attempt (openLog o) (fun _ => true) fun f => do
    log (Log.error "Unable to initialize script")
    throw f

def variant (o : Options) : Except Fault Variant :=
  if o.tenNodes && o.unfair then .error (.misconfigured .combinedVariants)
  else if o.tenNodes then .ok .dualInstance
  else if o.unfair then .ok .unfair
  else .ok .standard

def roster (o : Options) : Roster :=
  { size := o.fleetSize, template := o.hostTemplate
    hosts := match o.hosts with
      | some hs => .list (hs.map .text)
      | none => .null }

def fleet (o : Options) (w : Template.Objects) : Except Fault Fleet := do
  let v ← variant o
  let nodes ← (roster o).nodes w
  Fleet.resolve nodes
    { variant := .text v.name, staking := o.staking, elevatedStaking := o.elevatedStaking
      inputFolder := o.inputFolder, bootstrapHost := o.bootstrapHost }

def isMisconfigured : Fault → Bool
  | .misconfigured _ => true
  | _ => false

def compose (o : Options) (f : Fleet) : Run Unit := do
  let services ← Run.lift (Manifest.services { size := .num (.int f.topology.networkSize) })
  let text := Manifest.print services
  match file? o.output with
  | some path =>
    Run.writeFile path (.file text)
    log (Log.info s!"Compose manifest written to {path}")
  | none => modify fun s => { s with printed := s.printed ++ text }

def sshConfig (o : Options) : Run Value := do
  let d := (← get).disk
  let path ← Run.lift (d.expand o.sshConfigFile)
  if d.isPresent path then return .text path
  log (Log.info s!"SSH config file {path} does not exist. Using defaults.")
  return .null

def identity (o : Options) : Run Value := do
  if o.identityFile.isTruthy then
    return .text (← Run.lift ((← get).disk.expand o.identityFile))
  return .null

/-- Files and values that cannot be used make the settings wrong. -/
def isSettingFault : Fault → Bool
  | .file _ => true
  | .value _ => true
  | _ => false

def executor (o : Options) : Run Executor :=
  attempt (do
    let sshConfig ← sshConfig o
    let identity ← identity o
    Run.lift (Executor.ofSettings (← get).disk { sshConfig, user := o.user.given?, identity }))
    isSettingFault fun f => throw (.misconfigured (.executor f.message))

def deployAct (p : Deploy.Pipeline) (job : String) : Deploy.Act Report := do
  Deploy.Pipeline.log (Log.info (s!"Deploying to {p.plan.fleet.nodes.length} node(s): " ++
    Text.joinWith ", " (p.steps.map (·.name))))
  p.run (some (.text job)) .empty

def ofDeployment (x : Deploy.Act α) : Run α := do
  let (result,g) := (ExceptT.run x).run { session := ← get }
  set g.session
  Run.lift result

def ofLifecycle (x : Lifecycle.Act α) : Run α := do
  let (result,g) := (ExceptT.run x).run { session := ← get }
  set g.session
  Run.lift result

def deploy (o : Options) (f : Fleet) (e : Executor) (job : String) : Run Report := do
  let policy := if o.skipFailed then Deploy.Policy.skipFailed else .carryOn
  let p ← Run.lift (Deploy.Pipeline.ofSettings f e (← get).disk
    { source := o.sourceDirectory, isPartial := o.partialDeployment
      policy := .num (.int policy.code), directory := o.remoteDirectory })
  ofDeployment (deployAct p job)

def startAct (o : Options) (c : Lifecycle.Controller) : Lifecycle.Act Report := do
  let report ← c.run
  if o.detach then
    Lifecycle.Act.log (Log.warning ("Helpers and daemons issued. Not waiting for them; " ++
      "their channels close when this process exits."))
    return report
  Lifecycle.Act.log (Log.info
    "Waiting for helpers and daemon starts to finish. Ctrl-C to stop waiting.")
  if (← get).session.interrupts then
    Lifecycle.Act.log (Log.warning
      "Interrupted. Closing channels; remote processes may keep running.")
    Lifecycle.Controller.close
    return report
  Lifecycle.Controller.supervise

def start (o : Options) (f : Fleet) (e : Executor) : Run Report := do
  let c ← Run.lift (Lifecycle.Controller.create f e o.reloadsUnits o.remoteDirectory)
  ofLifecycle (startAct o c)

def stop (o : Options) (f : Fleet) (e : Executor) : Run Report := do
  let c ← Run.lift (Lifecycle.Controller.create f e true o.remoteDirectory)
  ofLifecycle do
    let _ ← c.stop
    return (← get).report

/-- Faults of a probe that leave its unit as not active. -/
def isProbeFault : Fault → Bool
  | .file why => why != .nul
  | .run _ => true
  | _ => false

def probeInstance (o : Options) (i : Instance) : Run Bool :=
  attempt (do
    let sshConfig ← sshConfig o
    let identity ← identity o
    Probe.unitIsActive i.node i.name { sshConfig, user := o.user.given?, identity })
    isProbeFault fun f => do
      log (Log.error s!"{i.key}: probe failed: {f.message}")
      return false

def findNode (f : Fleet) : Value → Except Fault Node
  | .num (.int ordinal) =>
    match if ordinal < 0 then none else f.nodes[ordinal.toNat]? with
    | some n => .ok n
    | none => .error (.ofMisconfigured (.noSuchNode ordinal f.nodes.length))
  | v => .error (.type (.comparison "int" v.kindName))

def nodeStatus (o : Options) (f : Fleet) : Run (Table String Bool) := do
  let n ← Run.lift (findNode f o.node)
  (f.instancesOn n).foldlM (fun t i => do return t.put i.key (← probeInstance o i)) .empty

def statusResult (active : Table String Bool) (i : Instance) : Option (String × Executor.Result) :=
  (active.get? i.key).map fun isActive =>
    (i.key, ⟨i.key, some i.node.address, some (if isActive then 0 else 3), some "", some "",
      if isActive then none else some "not active"⟩)

def status (o : Options) (f : Fleet) (e : Executor) : Run Report := do
  let active ← if o.node = .null then Probe.unitsAreActive f e else nodeStatus o f
  let report := Report.empty.record Probe.label
    (Table.ofList (f.instances.filterMap (statusResult active)))
  if !(← Probe.bootstrapIsReachable f (some (.num (.int Defaults.reachTimeout)))) then
    log (Log.info s!"Bootstrap peer {f.topology.bootstrapSocket} is not reachable from here")
  return report

/-- The directory of a job, named for the job and for the time and chance of its making. -/
def jobPath (o : Options) (d : Files.Disk) (stamp : String) : String :=
  Files.join d.temporary s!"{o.jobId.shown}-{stamp}"

def makeJob (o : Options) (stamp : String) : Run String := do
  let path := jobPath o (← get).disk stamp
  Run.replaceDisk (·.makeDirectory path)
  return path

def reportFile : String := "report.json"

def ship (bucket file key : String) : Run Unit := do
  modify fun s => { s with shipments := s.shipments ++ [⟨file, bucket, key⟩] }
  match (← get).storeRefusal with
  | none => log (Log.info s!"Fleet report uploaded to s3://{bucket}/{key}")
  | some why =>
    log (Log.error s!"Failed to upload fleet report to {bucket}")
    log (Log.error why)

def hasBucket (o : Options) : Bool := o.bucket.any fun b => !b.isEmpty

def isAborting : Fault → Bool
  | .misconfigured _ => true
  | .disorder _ => true
  | _ => false

def attempted (o : Options) (a : Action) (f : Fleet) (job : String) : Run Report := do
  let e ← executor o
  match a with
  | .deploy => deploy o f e job
  | .start => start o f e
  | .stop => stop o f e
  | _ => status o f e

/-- An action on the fleet, up to its report; none if the action was called off. -/
def act (o : Options) (a : Action) (f : Fleet) (job : String) : Run (Option Report) :=
  attempt (do return some (← attempted o a f job)) isAborting fun why => do
    log (Log.error s!"{a.name} aborted: {why.message}")
    return none

def reported (o : Options) (a : Action) (f : Fleet) (job : String) :
    Run (Option (String × Report)) := do
  match ← act o a f job with
  | none => return none
  | some r =>
    r.summary.forM log
    Run.writeFile (Files.join job reportFile) (.file r.text)
    return some (job, r)

def scenario (o : Options) : Run (Option Fleet) :=
  attempt (do return some (← Run.lift (fleet o (← get).objects))) isMisconfigured fun why => do
    log (Log.error s!"Invalid scenario: {why.message}")
    return none

/-- All up to the report in the directory of the job, if it comes to that. -/
def written (o : Options) (a : Action) (stamp : String) : Run (Option (String × Report)) := do
  setUp o
  match ← scenario o with
  | none => return none
  | some f =>
    let job ← makeJob o stamp
    if hasBucket o && o.cleanUp then
      modify fun s => { s with exitTasks := s.exitTasks ++ [.removeJob] }
    reported o a f job

def copyOut (o : Options) (r : Report) : Run Unit :=
  match file? o.report with
  | some path => Run.writeFile path (.file r.text)
  | none => pure ()

def handOver (o : Options) (job : String) : Run Unit :=
  if hasBucket o then
    ship (o.bucket.getD "") (Files.join job reportFile) (Files.baseName job ++ "/" ++ reportFile)
  else log (Log.info s!"Fleet report can be found in {Files.join job reportFile}")

def verdict (a : Action) (r : Report) : Run Ending := do
  if r.isOk then return finished 0
  log (Log.error s!"{a.name} finished with failures: {r.failureText}")
  return finished 1

def conclude (o : Options) (a : Action) (job : String) (r : Report) : Run Ending := do
  copyOut o r
  handOver o job
  verdict a r

def composed (o : Options) : Run Ending := do
  setUp o
  match ← scenario o with
  | none => return finished 1
  | some f =>
    compose o f
    return finished 0

def performed (o : Options) (a : Action) (stamp : String) : Run Ending := do
  match ← written o a stamp with
  | none => return finished 1
  | some (job, r) => conclude o a job r

def runOptions (o : Options) (name stamp : String) : Run Ending :=
  match o.action with
  | none => return ⟨1, false, complaint name "an action is required"⟩
  | some .compose => composed o
  | some a => performed o a stamp

/-- Runs a command line of the program, which goes by the given name; the stamp tells this run's job
from others. -/
def run (name stamp : String) (arguments : List String) : Run Ending :=
  match Options.read arguments with
  | .refused why => return ⟨2, true, complaint name why⟩
  | .help => return ⟨0, true, ""⟩
  | .options o => runOptions o name stamp

def jobDirectory (d : Files.Disk) (stamp : String) (arguments : List String) : Option String :=
  match Options.read arguments with
  | .options o => some (jobPath o d stamp)
  | _ => none

def exitTask (job : String) : ExitTask → Run Unit
  | .removeJob => do
    log (Log.info s!"Deleting job dir {job}...")
    modify fun s => { s with disk := (s.disk.remove job).toOption.getD s.disk }
  | .removeScratch => do
    let _ ← Scratch.remove true none

/-- Does what is left to do at the end, what was asked for last first. -/
def atExit (job : String) : Run Unit := do
  (← get).exitTasks.reverse.forM (exitTask job)

end Program
end Flotilla.CommandLine
