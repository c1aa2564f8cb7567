import Flotilla.Command
import Flotilla.Host.Behaviour

namespace Flotilla.Host

inductive Source
  | content (text : String)
  | file (path : String)
  deriving DecidableEq, Repr

inductive Event
  | connect (user timeout : Option Value) (identity : Option String)
  | put (remote : String) (source : Source)
  | run (line : String) (asSudo : Bool) (timeout : Option Value) (background : Bool)
  | close
  deriving DecidableEq, Repr

/-- As whom, how patiently, and with which key connections are opened. User and patience are passed
on as given. -/
structure Access where
  user : Option Value
  connectTimeout : Option Value
  identity : Option String
  deriving DecidableEq, Repr

def Access.event (a : Access) : Event := .connect a.user a.connectTimeout a.identity

/-- The events so far and either what came of them or the text of the error that ended them. -/
structure Exchange (α : Type) where
  events : List Event
  outcome : Except String α

namespace Exchange

def fail (events : List Event) (why : String) : Exchange α := ⟨events, .error why⟩

/-- Records an event, after which the host may refuse to go on. -/
def step (e : Event) (refusal : Option String) : Exchange Unit :=
  match refusal with
  | some why => fail [e] why
  | none => ⟨[e], .ok ()⟩

def andThen (x : Exchange α) (f : α → Exchange β) : Exchange β :=
  match x.outcome with
  | .error why => ⟨x.events, .error why⟩
  | .ok a => let y := f a; ⟨x.events ++ y.events, y.outcome⟩

def map (f : α → β) (x : Exchange α) : Exchange β := ⟨x.events, x.outcome.map f⟩

/-- Closes the connection whatever came before. If closing fails, that is what went wrong. -/
def closing (b : Behaviour) (x : Exchange α) : Exchange α :=
  match b.closeError with
  | some why => ⟨x.events ++ [.close], .error why⟩
  | none => ⟨x.events ++ [.close], x.outcome⟩

def put (refusal : Option String) (u : Upload) : Exchange Unit :=
  let remote := Command.remotePath u.remote
  match u.content, u.file with
  | some text, _ => step (.put remote (.content text)) refusal
  | none, some path => step (.put remote (.file path)) refusal
  | none, none => fail [] (ValueFault.uploadSource u.remote).message

def putEach : List (Option String) → List Upload → Exchange Unit
  | _, [] => ⟨[], .ok ()⟩
  | refusals, u :: r => (put refusals.head?.join u).andThen fun _ => putEach refusals.tail r

def putAll (b : Behaviour) (us : List Upload) : Exchange Unit := putEach b.putErrors us

def connect (b : Behaviour) (a : Access) : Exchange Unit := step a.event b.connectError

def run (b : Behaviour) (c : Command) : Exchange Answer :=
  (step (.run c.line c.asSudo c.timeout false) b.runError).map fun _ => b.answer

/-- Starts the command without waiting for it. It has no time limit then. -/
def start (b : Behaviour) (c : Command) : Exchange Unit :=
  step (.run c.line c.asSudo none true) b.runError

def perform (b : Behaviour) (c : Command) : Exchange Answer :=
  (putAll b c.uploads).andThen fun _ => run b c

/-- A whole connection: opened, used, and closed. One that cannot be opened is not closed. -/
def complete (b : Behaviour) (a : Access) (c : Command) : Exchange Answer :=
  (connect b a).andThen fun _ => (perform b c).closing b

/-- Uploads and command of a command that is not waited for, on an open connection, which is closed
if that failed. -/
def launched (b : Behaviour) (c : Command) : Exchange Unit :=
  let x := (putAll b c.uploads).andThen fun _ => start b c
  match x.outcome with
  | .ok _ => x
  | .error _ => x.closing b

def launch (b : Behaviour) (a : Access) (c : Command) : Exchange Unit :=
  (connect b a).andThen fun _ => launched b c

def awaited (b : Behaviour) : Except String Answer :=
  match b.joinError with
  | some why => .error why
  | none => .ok b.answer

end Exchange
end Flotilla.Host
