import Flotilla.Fleet.Roster
import Flotilla.Host.SshConfig
import Flotilla.Session

/-! Fan-outs: a set of tasks, each over a connection of its own. A task that fails is a result like
any other and keeps none of the others from running. -/
namespace Flotilla

structure Executor where
  access : Host.Access
  /-- The connection settings by host. -/
  config : Host.SshConfig
  deriving DecidableEq, Repr

namespace Executor

def readIdentity (d : Files.Disk) (given : Value) : Except Fault (Option String) :=
  if given.isTruthy then
    match d.checkReadable "identity_file" given with
    | .error f => .error f
    | .ok () => .ok (some given.shown)
  else .ok none

def loadConfig (d : Files.Disk) (path : String) : Except Fault Host.SshConfig := do
  let path ← d.expand (.text path)
  if d.isFile path then Host.SshConfig.read (← (d.read path).mapError .file) else return []

/-- The connection settings, from the file that is given, which has to be readable, or else from the
one in the home directory. What is neither a path nor nothing names no file. -/
def readConfig (d : Files.Disk) (given : Value) : Except Fault Host.SshConfig :=
  if given.isTruthy then
    match d.checkReadable "ssh_config" given with
    | .error f => .error f
    | .ok () => loadConfig d given.shown
  else match given with
    | .null => loadConfig d Defaults.sshConfigFile
    | .text path => .error (.file (.missing path))
    | .bool _ => .error (.type (.path given.kindName))
    | .num (.int _) => .error (.type (.path given.kindName))
    | _ => .error (.type (.fileOrPath given.kindName))

structure Settings where
  sshConfig : Value := .null
  user : Option Value := none
  identity : Value := .null
  connectTimeout : Option Value := some (.num (.int Defaults.connectTimeout))
  deriving Repr

def ofSettings (d : Files.Disk) (s : Settings) : Except Fault Executor := do
  let config ← readConfig d s.sshConfig
  let identity ← readIdentity d s.identity
  return ⟨⟨s.user, s.connectTimeout, identity⟩, config⟩

def channel (label : Option String) (t : Task) : Host.Channel := ⟨label, some t.key, t.host⟩

def Result.ofAnswer (t : Task) (a : Host.Answer) : Result :=
  ⟨t.key, some t.host, a.returnCode, a.stdout, a.stderr, none⟩

def Result.ofOutcome (t : Task) : Except String Host.Answer → Result
  | .ok a => .ofAnswer t a
  | .error why => .failed t why

def finish (s : Session) (r : Running) : Session :=
  let s := s.updateHandle r.handle fun h =>
    h.complete (.ofOutcome r.task (Host.Exchange.awaited r.connection.behaviour))
  { s.happen r.connection [.close] with running := s.running.filter (· != r) }

def finishAll (s : Session) (which : Running → Bool) : Session :=
  (s.running.filter which).foldl finish s

/-- Lets the running commands of the fan-outs with a label end, or those with given keys. -/
def release (s : Session) (label : Option String) (keys : Option (List String)) : Session :=
  finishAll s fun r => r.label = label && match keys with
    | some ks => ks.contains r.task.key
    | none => true

/-- Time passes before the caller uses a connection, and while it waits for the others. -/
def pause (s : Session) : Session :=
  match s.meanwhile with
  | [] => s
  | which :: later => finishAll { s with meanwhile := later } which

/-- Runs one task to its end. A task with no proper command dies without a result. -/
def runTask (e : Executor) (label : Option String) (t : Task) (s : Session) :
    Option Result × Session :=
  match t.command.read with
  | .error _ => (none, s)
  | .ok command =>
    let c := s.connection (channel label t)
    let x := Host.Exchange.complete c.behaviour e.access command
    let s := s.exchange c x.events
    match x.outcome with
    | .ok a => (some (.ofAnswer t a), s)
    | .error why =>
      (some (.failed t why), s.note .task (Log.error s!"{t.key}: remote execution failed: {why}"))

def runTasks (e : Executor) (label : Option String) : List Task → Results → Session → Results × Session
  | [], rs, s => (rs, pause s)
  | t :: r, rs, s =>
    let (result,s) := e.runTask label t (pause s)
    runTasks e label r (match result with
      | some x => rs.put t.key x
      | none => rs) s

def failureLine (key : String) (r : Result) (stderr : String) : Log.Record :=
  Log.error (s!"{key}: rc: {codeText r.returnCode} error: " ++ r.error.getD "None" ++
    " stderr: " ++ Text.trim stderr)

def logResult (results : Results) (t : Task) : Run Unit :=
  match results.get? t.key with
  | none => throw (.unknownKey t.key)
  | some r =>
    if r.isOk then pure () else
    match r.stderr with
    | some stderr => Run.log (failureLine t.key r stderr)
    | none => throw (.noMemberOf Value.null.kindName "strip")

def execute (e : Executor) (label : Option String) (tasks : List Task) : Run Results := do
  let (results,s) := e.runTasks label tasks .empty (← get)
  set s
  tasks.forM (logResult results)
  return results

def startTask (e : Executor) (label : Option String) (id position : Nat) (t : Task) (s : Session) :
    Session :=
  let fail (s : Session) (why : String) :=
    (s.note .task (Log.error s!"{t.key}: failed to issue command: {why}")).updateHandle id
      fun h => (h.markIssueFailed (.failed t why)).2
  match t.command.read with
  | .error f => fail s f.message
  | .ok command =>
    let c := s.connection (channel label t)
    let x := Host.Exchange.launch c.behaviour e.access command
    let s := s.exchange c x.events
    match x.outcome with
    | .error why => fail s why
    | .ok () =>
      let s : Session := { s with running := s.running ++ [⟨id, position, t, label, c⟩] }
      s.updateHandle id fun h => (h.markIssued t.key (some c)).2

def startTasks (e : Executor) (label : Option String) (id : Nat) :
    Nat → List Task → Session → Session
  | _, [], s => pause s
  | position, t :: r, s =>
    startTasks e label id (position + 1) r (e.startTask label id position t (pause s))

/-- Starts all tasks and returns the handle's number as soon as each has been issued or failed to be. -/
def dispatch (e : Executor) (label : Option String) (tasks : List Task) : Run Nat := do
  let s ← get
  let id := s.handles.length
  let s := e.startTasks label id 0 tasks { s with handles := s.handles ++ [{ tasks }] }
  set (if s.holds then s else finishAll s fun r => r.handle == id)
  return id

def hangUp (s : Session) (c : Connection) : Session := (pause s).happen c [.close]

def close (id : Nat) : Run Unit :=
  modify fun s => match s.handle? id with
    | none => s
    | some h => h.close.2.foldl hangUp (s.updateHandle id fun h => h.close.1)

def join (id : Nat) : Run Results := do
  modify pause
  return (((← get).handle? id).map (·.results)).getD .empty

def fleetTasks (nodes : List Node) (commandFor : Node → Option Command.Given) :
    Except Fault (List Task) := do
  let tasks ← nodes.mapM fun n => match commandFor n with
    | none => pure none
    | some given => do
      let c ← given.read
      pure (some ⟨n.name, n.address, .command c⟩)
  return tasks.filterMap id

end Executor
end Flotilla
