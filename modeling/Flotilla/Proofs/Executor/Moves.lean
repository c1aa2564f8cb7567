import Flotilla.Proofs.Executor.Barrier
import Flotilla.Proofs.Executor.Issue
import Flotilla.Proofs.Executor.Reaping

/-! What is done with executors, in any order, while started commands end when they like and hosts
change their minds. Every connection is opened for an errand, and there is one connection for each. -/
namespace Flotilla.Executor

/-- What a connection is for. -/
structure Errand where
  way : Host.Way
  channel : Host.Channel
  behaviour : Host.Behaviour
  access : Host.Access
  command : Command
  /-- How many events there is time for, if a process is waited for that is cut off. -/
  cut : Option Nat
  begun : cut ≠ some 0

/-- What passes over the connection before the caller goes on, if there is time for all of it. -/
def Errand.course (x : Errand) : List Host.Event :=
  match x.way with
  | .waited => (Host.Exchange.complete x.behaviour x.access x.command).events
  | .started => (Host.Exchange.launch x.behaviour x.access x.command).events

def Errand.events (x : Errand) : List Host.Event :=
  match x.way with
  | .waited => Single.cutOff x.cut x.course
  | .started => x.course

def Errand.IsLent (x : Errand) : Prop :=
  x.way = .started ∧ (Host.Exchange.launch x.behaviour x.access x.command).outcome = .ok ()

def errand? (e : Executor) (way : Host.Way) (hosts : Host.Script) (label : Option String) (t : Task) :
    Option Errand :=
  match t.command.read with
  | .ok command =>
    some ⟨way, channel label t, hosts.behaviour (channel label t), e.access, command, none, nofun⟩
  | .error _ => none

def Single.errand? (s : Session) (host : String) (given : Command.Given) (user : Option Value)
    (identity : Value) (timeout : Option Value) : Option Errand :=
  let c : Host.Channel := ⟨none, none, host⟩
  let b := s.hosts.behaviour c
  let cut := Patience.cut? timeout b.child
  match given.read, readIdentity s.disk identity with
  | .ok command, .ok key =>
    if h : b.child = .refused ∨ cut = some 0 then none
    else some ⟨.waited, c, b, ⟨user, none, key⟩, command, cut, fun none => h (.inr none)⟩
  | _, _ => none

/-- What comes next: an executor or a handle is used, or something happens by itself. -/
inductive Move
  | execute (e : Executor) (label : Option String) (tasks : List Task)
  | dispatch (e : Executor) (label : Option String) (tasks : List Task)
  | single (host : String) (given : Command.Given) (user : Option Value) (identity : Value)
      (timeout : Option Value)
  | join (id : Nat)
  | close (id : Nat)
  | ended (which : Running → Bool)
  | hostsBecame (hosts : Host.Script)

namespace Move

def apply (s : Session) : Move → Session
  | execute e label tasks => (exec (e.execute label tasks) s).2
  | dispatch e label tasks => (exec (e.dispatch label tasks) s).2
  | single host given user identity timeout =>
    (exec (Single.execute host given user identity timeout) s).2
  | join id => (exec (Executor.join id) s).2
  | close id => (exec (Executor.close id) s).2
  | ended which => finishAll s which
  | hostsBecame hosts => { s with hosts }

def errands (s : Session) : Move → List Errand
  | execute e label tasks => tasks.filterMap (e.errand? .waited s.hosts label)
  | dispatch e label tasks => tasks.filterMap (e.errand? .started s.hosts label)
  | single host given user identity timeout =>
    (Single.errand? s host given user identity timeout).toList
  | _ => []

end Move

def after (ms : List Move) (s : Session) : Session := ms.foldl Move.apply s

def errandsOf : List Move → Session → List Errand
  | [], _ => []
  | m :: ms, s => m.errands s ++ errandsOf ms (m.apply s)

def take (s : Session) : Option Errand → Session
  | some x => s.exchange (s.connection x.channel) x.events
  | none => s

theorem runTask_take (e : Executor) (label : Option String) (t : Task) (s : Session) :
    ∃ log, (e.runTask label t s).2 = { take s (e.errand? .waited s.hosts label t) with log } := by
  unfold runTask errand?
  cases t.command.read with
  | error f => exact ⟨s.log, rfl⟩
  | ok command =>
    dsimp only
    split <;> exact ⟨_, rfl⟩

theorem await_take {c : Connection} (started : c.behaviour.child ≠ .refused) (timeout : Option Value)
    (access : Host.Access) (command : Command) (s : Session) :
    ∃ processes, (exec (Single.await timeout c access command) s).2 =
      { (if Patience.cut? timeout c.behaviour.child = some 0 then s else
          s.exchange c (Single.cutOff (Patience.cut? timeout c.behaviour.child)
            (Host.Exchange.complete c.behaviour access command).events)) with processes } := by
  -- A connection begins with its being opened, so nothing has passed only if there was no time.
  have spoken : Single.spoken c (Single.cutOff (Patience.cut? timeout c.behaviour.child)
      (Single.converse c.behaviour access command).1) s =
        if Patience.cut? timeout c.behaviour.child = some 0 then s else
          s.exchange c (Single.cutOff (Patience.cut? timeout c.behaviour.child)
            (Host.Exchange.complete c.behaviour access command).events) := by
    obtain ⟨inside, events, -⟩ := Host.Exchange.events_complete c.behaviour access command
    rw [Single.converse, Single.spoken, events]
    rcases Patience.cut? timeout c.behaviour.child with _ | _ | n <;> rfl
  rw [Single.exec_await_of_started timeout s started, spoken]
  exact ⟨_, rfl⟩

theorem single_take (host : String) (given : Command.Given) (user : Option Value) (identity : Value)
    (timeout : Option Value) (s : Session) :
    ∃ processes, (exec (Single.execute host given user identity timeout) s).2 =
      { take s (Single.errand? s host given user identity timeout) with processes } := by
  unfold Single.errand?
  cases read : given.read with
  | error f =>
    rw [Single.execute, read, exec_bind_error (exec_lift _ s)]
    exact ⟨s.processes, rfl⟩
  | ok command =>
    cases key : readIdentity s.disk identity with
    | error f =>
      rw [Single.exec_execute_of_fault read host user timeout key]
      exact ⟨s.processes, rfl⟩
    | ok found =>
      rw [Single.exec_execute_of_key read host user timeout key]
      dsimp only
      have behaves : (s.connection ⟨none, none, host⟩).behaviour =
        s.hosts.behaviour ⟨none, none, host⟩ := rfl
      by_cases refused : (s.hosts.behaviour ⟨none, none, host⟩).child = .refused
      · rw [dif_pos (.inl refused), Single.exec_await_of_refused timeout s (behaves ▸ refused)]
        exact ⟨_, rfl⟩
      · obtain ⟨processes, same⟩ := await_take (c := s.connection ⟨none, none, host⟩) refused timeout
          ⟨user, none, found⟩ command s
        refine ⟨processes, same.trans ?_⟩
        simp only [behaves, or_iff_right refused]
        split <;> rfl

/-- All that a task can do that is started: it is refused, its connection used up, or a command is left
running for it over the next connection. -/
theorem startTask_cases (e : Executor) (label : Option String) (id position : Nat) (t : Task)
    (s : Session) :
    (∃ why log, e.refusal? s.hosts label t = some why ∧
      (∀ x ∈ e.errand? .started s.hosts label t, ¬ x.IsLent) ∧
      e.startTask label id position t s =
        Session.updateHandle { take s (e.errand? .started s.hosts label t) with log } id
          fun h => (h.markIssueFailed (.failed t why)).2) ∨
    ∃ x c, e.refusal? s.hosts label t = none ∧ e.errand? .started s.hosts label t = some x ∧
      x.IsLent ∧ x.channel = channel label t ∧ c = s.connection x.channel ∧
      e.startTask label id position t s =
        Session.updateHandle
          { s.exchange c x.events with running := s.running ++ [⟨id, position, t, label, c⟩] } id
          fun h => (h.markIssued t.key (some c)).2 := by
  unfold startTask refusal? errand?
  cases t.command.read with
  | error f => exact .inl ⟨f.message, _, rfl, fun _ made => (by cases made), rfl⟩
  | ok command =>
    dsimp only [Session.connection]
    cases launched : (Host.Exchange.launch (s.hosts.behaviour (channel label t)) e.access
      command).outcome with
    | error why =>
      refine .inl ⟨why, _, rfl, ?_, rfl⟩
      rintro _ ⟨⟩ ⟨-, started⟩
      cases launched.symm.trans started
    | ok started => exact .inr ⟨_, _, rfl, rfl, ⟨rfl, launched⟩, rfl, rfl, rfl⟩

theorem dispatch_snd (e : Executor) (label : Option String) (tasks : List Task) (s : Session) :
    (exec (e.dispatch label tasks) s).2 =
      let begun := e.startTasks label s.handles.length 0 tasks
        { s with handles := s.handles ++ [{ tasks }] }
      if begun.holds then begun else finishAll begun fun r => r.handle == s.handles.length := rfl

end Flotilla.Executor
