import Flotilla.Executor.Single
import Flotilla.Proofs.Files.Folder
import Flotilla.Proofs.Host.Protocol

/-! One command on one host, run by a process of its own. Its answer is handed over as soon as it is
there, so the connection may still break down as it is closed; of all else that goes wrong in the process
only the lack of an answer is noticed. A process that was made is ended once, and not before it was waited
for if it had been started. Who waits without a limit for one that does not end waits for ever. -/
namespace Flotilla

namespace Files.Disk
variable {d : Disk} {use : String} {v : Value}

def Readable (d : Disk) (v : Value) : Prop := ∃ p, v = .text p ∧ d.isFile p ∧ d.isClosed p = false

/-- What a setting is refused for that is to be the path of a file and is not: it is no path at all, or a
path that is of no use. -/
def unreadable (d : Disk) (use : String) : Value → Fault
  | .text p => .file (if hasNul p then .nul else if d.isPresent p && !d.isClosed p then .notFile p
      else .notReadable use p)
  | _ => .value .pathKind

theorem isPresent_of_isFile {p : String} (file : d.isFile p) : d.isPresent p := by
  unfold isFile at file
  unfold isPresent
  cases found : d.entry? p with
  | none => simp [found] at file
  | some e => rfl

theorem checkReadable_of_readable (readable : d.Readable v) : d.checkReadable use v = .ok () := by
  obtain ⟨p, rfl, file, closed⟩ := readable
  have there := isPresent_of_isFile file
  have clean := (checkPath_eq_ok_iff.mp (checkPath_of_isPresent there)).1
  simp [checkReadable, clean, there, file, closed]

theorem checkReadable_of_not_readable (lacking : ¬ d.Readable v) :
    d.checkReadable use v = .error (d.unreadable use v) := by
  cases v with
  | text p =>
    rw [checkReadable, unreadable]
    split
    · rfl
    · cases closed : d.isClosed p with
      | true => simp
      | false =>
        have file : d.isFile p = false := by
          by_contra there
          exact lacking ⟨p, rfl, by simpa using there, closed⟩
        cases d.isPresent p <;> simp [file]
  | _ => rfl

end Files.Disk

namespace Host

/-- The host lets in whoever connects, takes all uploads of a command, each of which says what to send, and
answers the command. Whether the connection can be closed is left open. -/
structure Behaviour.Serves (b : Behaviour) (c : Command) : Prop where
  connects : b.connectError = none
  takes : ∀ i, (bound : i < c.uploads.length) →
    (c.uploads[i].content.isSome ∨ c.uploads[i].file.isSome) ∧ b.putError? i = none
  runs : b.runError = none

theorem isSome_sending?_iff {u : Upload} :
    (sending? u).isSome ↔ u.content.isSome ∨ u.file.isSome := by
  rcases u with ⟨remote, _ | path, _ | text⟩ <;> simp [sending?]

theorem Behaviour.serves_iff_of_bare {b : Behaviour} {c : Command} (bare : c.uploads = []) :
    b.Serves c ↔ b.Answers :=
  ⟨fun h => ⟨h.connects, h.runs⟩, fun h => ⟨h.1, by simp [bare], h.2⟩⟩

theorem Behaviour.serves_iff {b : Behaviour} {c : Command} :
    b.Serves c ↔ b.connectError.or (b.useFailure? c) = none := by
  rw [useFailure?, Option.or_eq_none_iff, Option.or_eq_none_iff, uploadsFailure?_eq_none_iff]
  simp only [isSome_sending?_iff, List.getElem?_eq_some_iff, forall_exists_index, forall_apply_eq_imp_iff]
  exact ⟨fun h => ⟨h.connects, fun i u => h.takes i u, h.runs⟩, fun h => ⟨h.1, h.2.1, h.2.2⟩⟩

end Host

namespace Executor.Single
open Host (Behaviour)

/-- What is done with a process that was made: it is started, waited for unless it could not be, and ended
unless it is waited for for ever. -/
def life (timeout : Option Value) (child : Host.Child) : List ProcessEvent :=
  if child = .refused then [.start, .terminate]
  else if Patience.wait timeout child = .endless then [.start, .join timeout]
  else [.start, .join timeout, .terminate]

/-- What passes over a connection that serves a command: all of its uploads in their order, and then its
line. -/
def IsServed (a : Host.Access) (c : Command) (events : List Host.Event) : Prop :=
  ∃ sent, sent.map some = c.uploads.map Host.sending? ∧
    events = a.event :: (sent ++ [Host.call c .waited, .close])

/-- What comes of a process that was made for a command, by how the host behaves to it. -/
structure Fares (b : Behaviour) (host : String) (access : Host.Access) (c : Command)
    (timeout : Option Value) (s s' : Session) (x : Except Fault Host.Answer) : Prop where
  answers : Patience.fault? timeout = none →
    ∀ a, x = .ok a ↔ (b.child = .ends ∧ b.Serves c) ∧ a = b.answer
  /-- An answer is one to this command, after all that was to be put there for it. -/
  served : ∀ a, x = .ok a → ∃ events, IsServed access c events ∧
    s'.trace = s.trace ++ events.map fun e => ⟨s.opened, ⟨none, none, host⟩, e⟩
  refused : b.child = .refused → x = .error (.authentication "Authentication failed.")
  /-- What went wrong is not told, only whether the process came to its end in time. -/
  unheard : Patience.fault? timeout = none → b.child ≠ .refused → (∀ a, x ≠ .ok a) →
    ¬ (Patience.isEndless timeout ∧ b.child.hung?.isSome) →
      ∃ why, x = .error (.run why) ∧ (why = .overtime ↔ b.child.hung?.isSome)
  blocked : Patience.isEndless timeout → b.child.hung?.isSome → x = .error .endless
  /-- Nothing is awaited with a limit that is of no use. -/
  unwaited : b.child ≠ .refused → ∀ f, Patience.fault? timeout = some f → x = .error f
  reaped : s'.processes = s.processes ++ life timeout b.child

section
variable {b : Behaviour} {c : Command} (a : Host.Access)

theorem answer_converse : (converse b a c).2 =
    (Host.comesTo (b.connectError.or (b.useFailure? c)) b.answer).toOption := by
  apply congrArg Except.toOption
  exact Host.Exchange.outcome_andThen_of (Host.Exchange.outcome_step _ _)
    (Host.Exchange.outcome_perform b c)

theorem answer_of_serves (serves : b.Serves c) : (converse b a c).2 = some b.answer := by
  rw [answer_converse, Host.toOption_comesTo, if_pos (Host.Behaviour.serves_iff.mp serves)]

theorem answer_of_not_serves (fails : ¬ b.Serves c) : (converse b a c).2 = none := by
  rw [answer_converse, Host.toOption_comesTo, if_neg (mt Host.Behaviour.serves_iff.mpr fails)]

theorem isServed_of_serves (serves : b.Serves c) : IsServed a c (converse b a c).1 := by
  have sent : Host.Behaviour.uploadsFailure? b.putErrors c.uploads = none :=
    (Option.or_eq_none_iff.mp (Option.or_eq_none_iff.mp (Host.Behaviour.serves_iff.mp serves)).2).1
  refine ⟨_, Host.Exchange.events_putEach_of_ok sent, ?_⟩
  change (Host.Exchange.complete b a c).events = _
  rw [Host.Exchange.events_complete_of_connected serves.connects, Host.Exchange.used, sent]
  simp [Host.Exchange.putAll]

end

theorem fault?_of_isEndless {timeout : Option Value} (endless : Patience.isEndless timeout) :
    Patience.fault? timeout = none := by
  rw [Patience.isEndless, Option.isNone_iff_eq_none] at endless
  rw [Patience.fault?, endless]
  rfl

section
variable {c : Connection} {a : Host.Access} {command : Command} (timeout : Option Value) (s : Session)

theorem exec_process (e : ProcessEvent) (s : Session) :
    exec (process e) s = (.ok ⟨⟩, { s with processes := s.processes ++ [e] }) := rfl

theorem spoken_of_processes (c : Connection) (passed : List Host.Event) (s : Session)
    (processes : List ProcessEvent) :
    spoken c passed { s with processes } = { spoken c passed s with processes } := by
  unfold spoken
  split <;> rfl

theorem spoken_of_served {events : List Host.Event} (served : IsServed a command events) :
    spoken c events s = s.exchange c events := by
  obtain ⟨sent, -, rfl⟩ := served
  rfl

theorem exec_await_of_refused (refused : c.behaviour.child = .refused) :
    exec (await timeout c a command) s = (.error (.authentication "Authentication failed."),
      { s with processes := s.processes ++ life timeout .refused }) := by
  rw [await, refused, life, if_pos rfl, if_pos rfl]
  simp [process, exec_bind]

theorem exec_await_of_started (started : c.behaviour.child ≠ .refused) :
    exec (await timeout c a command) s =
      ((match Patience.wait timeout c.behaviour.child with
        | .ended => heard (converse c.behaviour a command).2
        | .givenUp why => .error why
        | .endless => .error .endless),
      { spoken c (cutOff (Patience.cut? timeout c.behaviour.child) (converse c.behaviour a command).1) s
        with processes := s.processes ++ life timeout c.behaviour.child }) := by
  rw [await, exec_bind_ok (exec_process .start s), if_neg started, exec_bind_ok (exec_modify _ _),
    spoken_of_processes, exec_bind_ok (exec_process _ _), life, if_neg started]
  cases Patience.wait timeout c.behaviour.child with
  | endless => simp [List.append_assoc]
  | givenUp why => simp [exec_bind, exec_process, List.append_assoc]
  | ended => simp [exec_bind, exec_process, List.append_assoc]

end

theorem fares_await (host : String) (access : Host.Access) (command : Command)
    (timeout : Option Value) (s : Session) :
    let (x,s') := exec (await timeout (s.connection ⟨none, none, host⟩) access command) s
    Fares (s.hosts.behaviour ⟨none, none, host⟩) host access command timeout s s' x := by
  have behaves : (s.connection ⟨none, none, host⟩).behaviour =
    s.hosts.behaviour ⟨none, none, host⟩ := rfl
  cases child : (s.hosts.behaviour ⟨none, none, host⟩).child with
  | refused =>
    rw [exec_await_of_refused timeout s child]
    constructor <;> simp [child, Host.Child.hung?]
  | hangs n =>
    rw [exec_await_of_started timeout s (by simp [behaves, child]), behaves, child, Patience.wait]
    cases fault : Patience.fault? timeout with
    | some why =>
      have limited : ¬ Patience.isEndless timeout := fun endless => by
        cases fault.symm.trans (fault?_of_isEndless endless)
      constructor <;> simp [child, fault, limited]
    | none =>
      cases endless : Patience.isEndless timeout with
      | true => constructor <;> simp [child, fault, endless, Host.Child.hung?]
      | false => constructor <;> simp [child, fault, endless, Host.Child.hung?]
  | ends =>
    rw [exec_await_of_started timeout s (by simp [behaves, child]), behaves, child, Patience.wait,
      Patience.cut?]
    cases fault : Patience.fault? timeout with
    | some why =>
      have limited : ¬ Patience.isEndless timeout := fun endless => by
        cases fault.symm.trans (fault?_of_isEndless endless)
      constructor <;> simp [child, fault, limited]
    | none =>
      by_cases serves : (s.hosts.behaviour ⟨none, none, host⟩).Serves command
      · have passed := isServed_of_serves access serves
        rw [answer_of_serves access serves]
        constructor
        case answers => simp [heard, child, serves, eq_comm, Host.Child.hung?]
        case served =>
          refine fun a _ => ⟨_, passed, ?_⟩
          dsimp only [Option.isSome_none, Host.Child.hung?]
          rw [if_neg Bool.false_ne_true, cutOff, spoken_of_served _ passed]
          rfl
        all_goals simp [heard, child, fault, Host.Child.hung?]
      · rw [answer_of_not_serves access serves]
        constructor <;> simp [heard, child, fault, serves, Host.Child.hung?]

def keyOf (identity : Value) : Option String :=
  if identity.isTruthy then some identity.shown else none

section
variable {d : Files.Disk} {identity : Value}

theorem readIdentity_of_usable (usable : identity.isTruthy = false ∨ d.Readable identity) :
    readIdentity d identity = .ok (keyOf identity) := by
  unfold readIdentity keyOf
  cases truthy : identity.isTruthy with
  | false => rfl
  | true =>
    have readable := usable.resolve_left (by simp [truthy])
    rw [Files.Disk.checkReadable_of_readable readable]
    rfl

theorem readIdentity_of_not_readable (truthy : identity.isTruthy) (lacking : ¬ d.Readable identity) :
    readIdentity d identity = .error (d.unreadable "identity_file" identity) := by
  rw [readIdentity, if_pos truthy, Files.Disk.checkReadable_of_not_readable lacking]

end

section
variable {given : Command.Given} {command : Command} (read : given.read = .ok command) {s : Session}
  {identity : Value} (host : String) (user timeout : Option Value)
include read

theorem exec_execute_of_key {key : Option String} (found : readIdentity s.disk identity = .ok key) :
    exec (execute host given user identity timeout) s =
      exec (await timeout (s.connection ⟨none, none, host⟩) ⟨user, none, key⟩ command) s := by
  rw [execute, read, exec_bind_ok (exec_lift _ s), exec_bind_ok (exec_get s), found,
    exec_bind_ok (exec_lift _ s), exec_bind_ok (exec_get s)]

theorem exec_execute_of_fault {f : Fault} (refused : readIdentity s.disk identity = .error f) :
    exec (execute host given user identity timeout) s = (.error f, s) := by
  rw [execute, read, exec_bind_ok (exec_lift _ s), exec_bind_ok (exec_get s), refused,
    exec_bind_error (exec_lift _ s)]

end

end Executor.Single
end Flotilla
