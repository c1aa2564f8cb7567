import Flotilla.Executor.Basic
import Flotilla.Executor.Patience

/-! One command on one host, talked to by a process of its own. The process hands over the result
before it closes its connection, and what fails in it is not heard of here. -/
namespace Flotilla.Executor

structure Single where
  config : Host.SshConfig
  deriving DecidableEq, Repr

namespace Single

def ofSettings (d : Files.Disk) (sshConfig : Value) : Except Fault Single :=
  (readConfig d sshConfig).map fun c => ⟨c⟩

def process (e : ProcessEvent) : Run Unit := modify fun s => { s with processes := s.processes ++ [e] }

def converse (b : Host.Behaviour) (a : Host.Access) (c : Command) : List Host.Event × Option Host.Answer :=
  let used := (Host.Exchange.connect b a).andThen fun _ => Host.Exchange.perform b c
  ((Host.Exchange.complete b a c).events, used.outcome.toOption)

def cutOff (cut : Option Nat) (events : List Host.Event) : List Host.Event :=
  match cut with
  | some n => events.take n
  | none => events

/-- Nothing has passed over a connection that was never opened. -/
def spoken (c : Connection) (passed : List Host.Event) (s : Session) : Session :=
  if passed.isEmpty then s else s.exchange c passed

def heard : Option Host.Answer → Except Fault Host.Answer
  | some a => .ok a
  | none => .error (.run .noResult)

/-- Waits for the process, which is ended in any case then. A wait that does not end has nothing after
it. -/
def await (timeout : Option Value) (c : Connection) (access : Host.Access) (command : Command) :
    Run Host.Answer := do
  process .start
  if c.behaviour.child = .refused then
    process .terminate
    throw (.authentication "Authentication failed.")
  let (events,answer) := converse c.behaviour access command
  modify (spoken c (cutOff (Patience.cut? timeout c.behaviour.child) events))
  process (.join timeout)
  match Patience.wait timeout c.behaviour.child with
  | .endless => throw .endless
  | .givenUp why =>
    process .terminate
    throw why
  | .ended =>
    process .terminate
    Run.lift (heard answer)

def execute (host : String) (given : Command.Given) (user : Option Value) (identity : Value)
    (timeout : Option Value) : Run Host.Answer := do
  let command ← Run.lift given.read
  let identity ← Run.lift (readIdentity (← get).disk identity)
  let c := (← get).connection ⟨none, none, host⟩
  await timeout c ⟨user, none, identity⟩ command

end Single
end Flotilla.Executor
