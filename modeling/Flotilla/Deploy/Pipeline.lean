import Flotilla.Deploy.Policy
import Flotilla.Deploy.Step
import Flotilla.Executor.Basic
import Flotilla.Files.Glob
import Flotilla.Files.Packing
import Flotilla.Report.Basic
import Flotilla.Scratch

/-! The deployment pipeline. Every step runs on all nodes before the next one starts. A node that
fails a step never stops the others; the policy says what becomes of the node itself. -/
namespace Flotilla.Deploy

structure Pipeline where
  plan : Plan
  executor : Executor
  source : String
  isPartial : Bool
  policy : Policy
  deriving DecidableEq, Repr

structure Settings where
  source : Value := .text "."
  isPartial : Bool := false
  policy : Value := .num (.int 1)
  directory : Value := .text Defaults.remoteDirectory
  timeout : Option Value := none
  deriving Repr

/-- How far a deployment has come: the session it runs in, the archives, and the report it writes. -/
structure Progress where
  session : Session
  built : Archives := ⟨none, none⟩
  report : Report := .empty

/-- Acts of a deployment. What is done stays done if the act then fails. -/
abbrev Act := ExceptT Fault (StateM Progress)

namespace Act

def run (x : Run α) : Act α := do
  let (result,session) := (ExceptT.run x).run (← get).session
  modify fun p => { p with session }
  match result with
  | .ok a => return a
  | .error f => throw f

end Act

namespace Pipeline

def ofSettings (f : Fleet) (e : Executor) (d : Files.Disk) (s : Settings) :
    Except Fault Pipeline := do
  let policy ← Policy.parse s.policy
  let source ← d.expand s.source
  let directory ← Unit.readDirectory s.directory
  return ⟨⟨f, directory, s.timeout⟩, e, source, s.isPartial, policy⟩

def steps (p : Pipeline) : List Step := Step.all.filter fun s => !(p.isPartial && s.isSkippable)

def sourcePath (p : Pipeline) : String := Files.join p.source "src"
def inputsPath (p : Pipeline) : String := Files.join p.source Defaults.inputsDirectory
def packageFile : String := "Cargo.toml"
def packagePattern : String := "Cargo.*"

def findPackageFiles (p : Pipeline) (d : Files.Disk) : Except Fault (List String) :=
  match Files.glob d (Files.join p.source packagePattern) with
  | .ok paths => .ok (Report.sortKeys paths)
  | .error why => .error (.file why)

def checkSources (p : Pipeline) (d : Files.Disk) (packageFiles : List String) : Except Fault Unit :=
  if !d.isDirectory p.sourcePath then .error (.misconfigured (.noSources p.sourcePath))
  else if !packageFiles.contains (Files.join p.source packageFile) then
    .error (.misconfigured (.noPackageFile p.source))
  else if !d.isDirectory p.inputsPath then .error (.misconfigured (.noInputs p.inputsPath))
  else .ok ()

def packed (d : Files.Disk) (archive : String) (contents : List (String × String)) : Files.Packing :=
  let location := (d.fileTarget archive).toOption.getD []
  .all (contents.map fun c => d.pack location c.1 c.2)

/-- Writes an archive of paths. If one of them cannot be packed, the archive stays as it is then. -/
def writeArchive (path : String) (contents : List (String × String)) : Act Unit := Act.run do
  Run.writeFile path (.torn [])
  let packing := packed (← get).disk path contents
  Run.writeFile path packing.entry
  Run.lift (packing.outcome.mapError .file)

/-- Where the archives are to go. -/
inductive Workspace
  | given (directory : Value)
  | scratch

def Workspace.ofGiven : Option Value → Workspace
  | some directory => .given directory
  | none => .scratch

/-- Checks what is shipped and makes the directory for the archives. Nothing is begun yet. -/
def ready (p : Pipeline) (directory : Value) : Act (String × List String) := do
  let d := (← get).session.disk
  let packageFiles ← Act.run (Run.lift (p.findPackageFiles d))
  Act.run (Run.lift (p.checkSources d packageFiles))
  let directory ← Act.run (Run.lift (Files.Disk.pathOf directory))
  Act.run (Run.changeDisk fun d => d.makeDirectories directory)
  return (directory, packageFiles)

def readyIn (p : Pipeline) : Workspace → Act (String × List String)
  | .given directory => p.ready directory
  | .scratch => do
    let directory ← Act.run Scratch.make
    Act.run (modify fun s => { s with exitTasks := s.exitTasks ++ [.removeScratch] })
    p.ready (.text directory)

def sourceContents (p : Pipeline) (packageFiles : List String) : List (String × String) :=
  (p.sourcePath, "src") :: packageFiles.map fun f => (f, Files.baseName f)

def inputsContents (p : Pipeline) : List (String × String) :=
  [(p.inputsPath, Defaults.inputsDirectory)]

/-- Builds an archive. It counts as built from the moment it is begun. -/
def buildSource (p : Pipeline) (directory : String) (packageFiles : List String) : Act Unit := do
  let source := Files.join directory sourceArchive
  modify fun g => { g with built := { g.built with source := some source } }
  writeArchive source (p.sourceContents packageFiles)

def buildInputs (p : Pipeline) (directory : String) : Act Unit := do
  let inputs := Files.join directory inputsArchive
  modify fun g => { g with built := { g.built with inputs := some inputs } }
  writeArchive inputs p.inputsContents

def prepareIn (p : Pipeline) (w : Workspace) : Act Unit := do
  let (directory, packageFiles) ← p.readyIn w
  p.buildSource directory packageFiles
  p.buildInputs directory

def prepare (p : Pipeline) (directory : Value) : Act Unit := p.prepareIn (.given directory)

def log (r : Log.Record) : Act Unit := Act.run (Run.log r)

def leaveOut (s : Step) (skipped : List String) : Act Unit := do
  if !skipped.isEmpty then
    log (Log.info (s.name ++ ": skipping nodes that failed an earlier stage: " ++
      Text.joinWith ", " skipped))
    modify fun g =>
      { g with report := g.report.recordSkipped s.name skipped (some "failed an earlier stage") }

def takePart (p : Pipeline) (active : List Node) (s : Step) : Act (List String) := do
  log (Log.info s!"{s.name}: running on {active.length} node(s)")
  let built := (← get).built
  let results ← Act.run do
    let tasks ← Run.lift (Executor.fleetTasks active fun n =>
      (p.plan.command built n s).map Command.Given.command)
    p.executor.execute (some s.name) tasks
  modify fun g => { g with report := g.report.record s.name results }
  let failed := Report.sortKeys (results.filter fun _ r => !r.isOk).keys
  if !failed.isEmpty then
    log (Log.error (s.name ++ ": failed on " ++ Text.joinWith ", " failed))
  return failed

def runStep (p : Pipeline) (excluded : List String) (s : Step) : Act (List String) := do
  let nodes := p.plan.fleet.nodes
  leaveOut s ((nodes.filter fun n => excluded.contains n.name).map (·.name))
  p.takePart (nodes.filter fun n => !excluded.contains n.name) s

def runSteps (p : Pipeline) : List String → List Step → Act Unit
  | _, [] => pure ()
  | excluded, s :: r => do
    let failed ← p.runStep excluded s
    p.runSteps (if p.policy = .skipFailed then excluded ++ failed else excluded) r

/-- Runs all active steps, after building the archives if they have not been built, and enters what
comes of it into a report. -/
def run (p : Pipeline) (directory : Option Value) (report : Report) : Act Report := do
  modify fun g => { g with report }
  let built := (← get).built
  if built.source.isNone || built.inputs.isNone then
    p.prepareIn (.ofGiven directory)
  p.runSteps [] p.steps
  return (← get).report

end Pipeline
end Flotilla.Deploy
