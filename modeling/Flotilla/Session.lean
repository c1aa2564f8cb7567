import Flotilla.Executor.Handle
import Flotilla.Files.Disk
import Flotilla.Host.Exchange
import Flotilla.Log
import Flotilla.Template.Basic

/-! A session: what a run has to do with outside itself. It holds the hosts, the files here, all
that has passed over connections and into the log so far, and the commands still running. -/
namespace Flotilla

structure Connection where
  id : Nat
  channel : Host.Channel
  behaviour : Host.Behaviour
  deriving DecidableEq, Repr

/-- An event of a connection. -/
structure Happening where
  connection : Nat
  channel : Host.Channel
  event : Host.Event
  deriving DecidableEq, Repr

/-- Who wrote a log record: the caller, or one of the tasks that run beside it. -/
inductive Speaker
  | caller
  | task
  deriving DecidableEq, Repr

/-- A command that was started for a task of a handle and has not ended. -/
structure Running where
  handle : Nat
  position : Nat
  task : Executor.Task
  label : Option String
  connection : Connection
  deriving DecidableEq, Repr

/-- What is left to do when the program ends. -/
inductive ExitTask
  | removeScratch
  | removeJob
  deriving DecidableEq, Repr

/-- What is done with the process that talks to a single host. -/
inductive ProcessEvent
  | start
  | join (timeout : Option Value)
  | terminate
  deriving DecidableEq, Repr

/-- An attempt to reach a port, and the time it was given. -/
structure Attempt where
  host : String
  port : Int
  timeout : Option Value
  deriving DecidableEq, Repr

/-- A file sent to the store, and where it goes there. -/
structure Shipment where
  file : String
  bucket : String
  key : String
  deriving DecidableEq, Repr

structure Session where
  hosts : Host.Script
  disk : Files.Disk
  /-- The number of this process, as it stands in names. -/
  process : String
  /-- What the templates of addresses can get at. -/
  objects : Template.Objects := .types
  /-- Whether started commands run on until they are released. -/
  holds : Bool := true
  /-- Which of them end while the caller is busy: each of its pauses takes the next. -/
  meanwhile : List (Running → Bool) := []
  opened : Nat := 0
  trace : List Happening := []
  log : List (Speaker × Log.Record) := []
  handles : List (Executor.Handle Connection) := []
  running : List Running := []
  exitTasks : List ExitTask := []
  processes : List ProcessEvent := []
  /-- Why no port can be reached, if none can. -/
  unreachable : Option String := none
  attempts : List Attempt := []
  /-- Why the store takes nothing, if it does not. -/
  storeRefusal : Option String := none
  shipments : List Shipment := []
  /-- Whether waiting for started commands is cut short. -/
  interrupts : Bool := false
  printed : String := ""
  threshold : Log.Threshold := .info

/-- Steps of a session. What a step has done stays done if it then fails. -/
abbrev Run := ExceptT Fault (StateM Session)

namespace Session

def new (hosts : Host.Script) (disk : Files.Disk) (process : String) : Session :=
  { hosts, disk, process }

def note (s : Session) (who : Speaker) (r : Log.Record) : Session :=
  { s with log := s.log ++ [(who, r)] }

def visibleLog (s : Session) : List (Speaker × Log.Record) :=
  s.log.filter fun r => r.2.passes s.threshold

def recordsSince (s before : Session) (who : Speaker) : List Log.Record :=
  ((s.log.drop before.log.length).filter (·.1 = who)).map (·.2)

def exchangesSince (s before : Session) : List (Host.Channel × List Host.Event) :=
  let enter (t : Table Nat (Host.Channel × List Host.Event)) (h : Happening) :=
    t.put h.connection (h.channel, ((t.get? h.connection).map (·.2)).getD [] ++ [h.event])
  ((s.trace.drop before.trace.length).foldl enter .empty).values

def happen (s : Session) (c : Connection) (events : List Host.Event) : Session :=
  { s with trace := s.trace ++ events.map fun e => ⟨c.id, c.channel, e⟩ }

def connection (s : Session) (c : Host.Channel) : Connection := ⟨s.opened, c, s.hosts.behaviour c⟩

def exchange (s : Session) (c : Connection) (events : List Host.Event) : Session :=
  { s.happen c events with opened := s.opened + 1 }

def handle? (s : Session) (id : Nat) : Option (Executor.Handle Connection) := s.handles[id]?

def updateHandle (s : Session) (id : Nat)
    (f : Executor.Handle Connection → Executor.Handle Connection) : Session :=
  { s with handles := s.handles.modify id f }

/-- Whether no command that a handle still waits for is running. Of tasks that share a key, a handle
waits for the last. -/
def isDone (s : Session) (id : Nat) : Bool :=
  match s.handle? id with
  | none => true
  | some h => s.running.all fun r =>
      r.handle != id || (h.tasks.drop (r.position + 1)).any (·.key == r.task.key)

end Session

namespace Run

def log (r : Log.Record) : Run Unit := modify (·.note .caller r)

def lift (x : Except Fault α) : Run α :=
  match x with
  | .ok a => pure a
  | .error f => throw f

/-- A change of the files here, which stays as far as it got. -/
def changeDisk (f : Files.Disk → Except FileFault α × Files.Disk) : Run α := do
  let (result,disk) := f (← get).disk
  modify fun s => { s with disk }
  match result with
  | .ok a => pure a
  | .error why => throw (.file why)

/-- A change of the files here that is made as a whole or not at all. -/
def replaceDisk (f : Files.Disk → Except FileFault Files.Disk) : Run Unit :=
  changeDisk fun d => match f d with
    | .ok d' => (.ok (), d')
    | .error why => (.error why, d)

def writeFile (path : String) (e : Files.Entry) : Run Unit := replaceDisk (·.write path e)

end Run
end Flotilla
