import Flotilla.Executor.Basic
import Flotilla.Lifecycle.Phase
import Flotilla.Report.Basic
import Flotilla.Unit

/-! From whatever a fleet is running to a fresh run of its scenario: stop, reload the units if asked
to, start the helpers, start the daemons. Daemons call their helpers at once, so each helper has to
be issued first; that it ends is not waited for. -/
namespace Flotilla.Lifecycle
open Executor

structure Controller where
  fleet : Fleet
  executor : Executor
  reloads : Bool
  directory : String
  deriving DecidableEq, Repr

/-- Where a controller stands: its session and phase, the handles of the present run, its report. -/
structure Progress where
  session : Session
  phase : Phase := .idle
  helpers : Option Nat := none
  daemons : Option Nat := none
  report : Report := .empty

/-- Acts of a controller. What is done stays done if the act then fails. -/
abbrev Act := ExceptT Fault (StateM Progress)

def stopLabel : String := "stop"
def reloadLabel : String := "reload-units"
def helpersLabel : String := "start-helpers"
def daemonsLabel : String := "start-daemons"

namespace Act

def run (x : Run α) : Act α := do
  let (result,session) := (ExceptT.run x).run (← get).session
  modify fun p => { p with session }
  match result with
  | .ok a => return a
  | .error f => throw f

def log (r : Log.Record) : Act Unit := run (Run.log r)

def handle (id : Nat) : Act (Handle Connection) := do
  return ((← get).session.handle? id).getD { tasks := [] }

end Act

namespace Controller

def create (f : Fleet) (e : Executor) (reloads : Bool) (directory : Value) :
    Except Fault Controller := do
  return ⟨f, e, reloads, ← Unit.readDirectory directory⟩

def moveTo (phase : Phase) : Act Unit := modify fun p => { p with phase }

def enter (allowed : List Phase) (phase : Phase) : Act Unit := do
  let current := (← get).phase
  if allowed.contains current then moveTo phase
  else throw (.disorder (.move phase.name current.name))

def close : Act Unit := do
  let p ← get
  for id in p.helpers.toList ++ p.daemons.toList do
    Act.run (Executor.close id)

/-- Both units are stopped on every node, as the run before may have been of another variant. -/
def stopTasks (c : Controller) : List Task :=
  c.fleet.nodes.flatMap fun n => Fleet.unitNames.map fun unit =>
    ⟨s!"{n.name}/{unit}", n.address, .command (Unit.stop unit)⟩

def stop (c : Controller) : Act Results := do
  enter [.idle, .stopped, .running] .stopping
  close
  let tasks := c.stopTasks
  Act.log (Log.info s!"Stopping {tasks.length} unit(s) on {c.fleet.nodes.length} node(s)")
  let results ← Act.run (c.executor.execute (some stopLabel) tasks)
  modify fun p => { p with report := p.report.record stopLabel results }
  moveTo .stopped
  return results

def reloadUnits (c : Controller) : Act Results := do
  enter [.stopped] .reloadingUnits
  Act.log (Log.info s!"Reloading unit definitions on {c.fleet.nodes.length} node(s)")
  let results ← Act.run do
    let tasks ← Run.lift (fleetTasks c.fleet.nodes fun _ => some (.command Unit.reload))
    c.executor.execute (some reloadLabel) tasks
  modify fun p => { p with report := p.report.record reloadLabel results }
  moveTo .unitsReloaded
  return results

def helperTasks (c : Controller) : List Task :=
  c.fleet.instances.map fun i => ⟨i.key, i.node.address, .command (Unit.helper i c.directory)⟩

def daemonTasks (c : Controller) : List Task :=
  c.fleet.instances.map fun i => ⟨i.key, i.node.address, .command (Unit.start i.name)⟩

def startHelpers (c : Controller) : Act Nat := do
  enter (if c.reloads then [.unitsReloaded] else [.stopped, .unitsReloaded]) .startingHelpers
  let tasks := c.helperTasks
  Act.log (Log.info s!"Starting {tasks.length} helper(s)")
  let id ← Act.run (c.executor.dispatch (some helpersLabel) tasks)
  let h ← Act.handle id
  modify fun p =>
    { p with helpers := some id, report := p.report.recordDispatch helpersLabel h }
  moveTo .helpersStarted
  return id

def helpersIssued (p : Progress) : Bool :=
  match p.helpers.bind p.session.handle? with
  | some h => h.allIssued
  | none => false

def startDaemons (c : Controller) : Act Nat := do
  if !helpersIssued (← get) then throw (.disorder .helpersNotIssued)
  enter [.helpersStarted] .startingDaemons
  let tasks := c.daemonTasks
  Act.log (Log.info s!"Starting {tasks.length} daemon(s)")
  let id ← Act.run (c.executor.dispatch (some daemonsLabel) tasks)
  let h ← Act.handle id
  modify fun p =>
    { p with daemons := some id, report := p.report.recordDispatch daemonsLabel h }
  moveTo .running
  return id

/-- The whole sequence. What was started is reported as dispatched. -/
def run (c : Controller) : Act Report := do
  let _ ← c.stop
  if c.reloads then
    let _ ← c.reloadUnits
  let _ ← c.startHelpers
  let _ ← c.startDaemons
  return (← get).report

def updateFrom (stage : String) (id : Option Nat) : Act Unit := do
  match id with
  | none => pure ()
  | some id =>
    let results ← Act.run (Executor.join id)
    modify fun p => { p with report := p.report.updateFrom stage results }

def supervise : Act Report := do
  let p ← get
  updateFrom daemonsLabel p.daemons
  updateFrom helpersLabel p.helpers
  return (← get).report

end Controller
end Flotilla.Lifecycle
