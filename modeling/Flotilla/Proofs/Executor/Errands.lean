import Flotilla.Proofs.Executor.Moves
import Flotilla.Proofs.Session.Setting
import Flotilla.Proofs.Session.Waning

/-! Errands in order. Over every connection passes what its errand calls for, and nothing after that but
closing it: once by whoever waits, and for a command that was started by whoever has the connection,
which may be several times. Until then the command is running. -/
namespace Flotilla

def Session.passedOver (s : Session) (k : Nat) : List Happening := s.trace.filter (·.connection = k)

namespace Executor
open Session

namespace Errand

/-- What has passed over the connection of an errand, if it was closed some times later on. -/
def passed (x : Errand) (k n : Nat) : List Happening :=
  (x.events ++ .replicate n .close).map fun e => ⟨k, x.channel, e⟩

theorem passed_succ (x : Errand) (k n : Nat) :
    x.passed k (n + 1) = x.passed k n ++ [⟨k, x.channel, .close⟩] := by
  simp [passed, List.replicate_succ']

end Errand

/-- A connection over which a command was started for one of these errands. -/
def IsLent (xs : List Errand) (c : Connection) : Prop :=
  ∃ x, xs[c.id]? = some x ∧ x.IsLent ∧ x.channel = c.channel

theorem IsLent.append {xs : List Errand} {c : Connection} (h : IsLent xs c) (ys : List Errand) :
    IsLent (xs ++ ys) c := by
  obtain ⟨x, found, lent⟩ := h
  exact ⟨x, by rw [List.getElem?_append_left (List.getElem?_eq_some_iff.mp found).1, found], lent⟩

/-- All connections are accounted for by errands. -/
structure Accounted (xs : List Errand) (s : Session) : Prop where
  opened : s.opened = xs.length
  trace : ∀ h ∈ s.trace, h.connection < xs.length
  passes : ∀ {k x}, xs[k]? = some x → ∃ n, s.passedOver k = x.passed k n ∧ (x.IsLent ∨ n = 0) ∧
    (x.IsLent → n ≠ 0 ∨ ∃ r ∈ s.running, r.connection.id = k)
  running : ∀ r ∈ s.running, IsLent xs r.connection
  held : ∀ {id h}, s.handle? id = some h → ∀ c ∈ h.connections.values, IsLent xs c

namespace Accounted
variable {xs : List Errand} {s s' : Session}

theorem new (hosts : Host.Script) (disk : Files.Disk) (process : String) (holds : Bool)
    (meanwhile : List (Running → Bool)) :
    Accounted [] { Session.new hosts disk process with holds, meanwhile } where
  opened := rfl
  trace := List.forall_mem_nil _
  passes := fun found => by cases found
  running := List.forall_mem_nil _
  held := fun found => by cases found

theorem congr (a : Accounted xs s) (opened : s'.opened = s.opened) (trace : s'.trace = s.trace)
    (running : s'.running = s.running) (handles : s'.handles = s.handles) : Accounted xs s' where
  opened := opened.trans a.opened
  trace := trace ▸ a.trace
  passes := by
    intro k x found
    simpa only [Session.passedOver, trace, running] using a.passes found
  running := running ▸ a.running
  held := by
    intro id h found
    rw [handle?, handles] at found
    exact a.held found

theorem close (a : Accounted xs s) {c : Connection} (lent : IsLent xs c) {left : List Running}
    (sub : ∀ r ∈ left, r ∈ s.running) (gone : ∀ r ∈ s.running, r ∈ left ∨ r.connection.id = c.id) :
    Accounted xs { s.happen c [.close] with running := left } where
  opened := a.opened
  trace := by
    obtain ⟨x, found, -⟩ := lent
    intro h member
    cases List.mem_append.mp member with
    | inl before => exact a.trace h before
    | inr closing =>
      rw [List.mem_singleton.mp closing]
      exact (List.getElem?_eq_some_iff.mp found).1
  passes := by
    intro k x found
    obtain ⟨n, passed, kind, runs⟩ := a.passes found
    have added : Session.passedOver { s.happen c [.close] with running := left } k =
        s.passedOver k ++ if c.id = k then [⟨c.id, c.channel, .close⟩] else [] := by
      change List.filter _ (s.trace ++ [(⟨c.id, c.channel, .close⟩ : Happening)]) = _
      rw [List.filter_append, Session.passedOver]
      by_cases same : c.id = k <;> simp [same]
    obtain ⟨y, known, isLent, channel⟩ := lent
    by_cases same : c.id = k
    · subst same
      obtain rfl := Option.some.inj (known.symm.trans found)
      refine ⟨n + 1, ?_, .inl isLent, fun _ => .inl (Nat.succ_ne_zero n)⟩
      rw [added, if_pos rfl, passed, y.passed_succ, channel]
    · refine ⟨n, ?_, kind, fun isLent => (runs isLent).imp_right ?_⟩
      · rw [added, if_neg same, passed, List.append_nil]
      · rintro ⟨r, runs, own⟩
        exact ⟨r, (gone r runs).resolve_right fun other => same (other.symm.trans own), own⟩
  running := fun r hr => a.running r (sub r hr)
  held := a.held

theorem updateHandle (a : Accounted xs s) (id : Nat) {f : Handle Connection → Handle Connection}
    (takes : ∀ h, ∀ c ∈ (f h).connections.values, c ∈ h.connections.values ∨ IsLent xs c) :
    Accounted xs (s.updateHandle id f) where
  opened := a.opened
  trace := a.trace
  passes := a.passes
  running := a.running
  held := by
    intro j h found c member
    rw [handle?_updateHandle] at found
    split at found
    · obtain ⟨h', found', rfl⟩ := Option.map_eq_some_iff.mp found
      exact (takes h' c member).elim (a.held found' c) fun lent => lent
    · exact a.held found c member

theorem updateHandle_of_same (a : Accounted xs s) (id : Nat)
    {f : Handle Connection → Handle Connection} (same : ∀ h, (f h).connections = h.connections) :
    Accounted xs (s.updateHandle id f) :=
  a.updateHandle id fun h _ member => .inl (same h ▸ member)

theorem serve (a : Accounted xs s) (x : Errand) (b : Host.Behaviour) (more : List Running)
    (own : ∀ r ∈ more, r.connection = ⟨s.opened, x.channel, b⟩ ∧ x.IsLent)
    (lends : x.IsLent → more ≠ []) :
    Accounted (xs ++ [x])
      { s.exchange ⟨s.opened, x.channel, b⟩ x.events with running := s.running ++ more } where
  opened := by
    rw [List.length_append, ← a.opened]
    rfl
  trace := by
    intro h member
    rw [List.length_append, List.length_singleton]
    cases List.mem_append.mp member with
    | inl before => exact Nat.lt_succ_of_lt (a.trace h before)
    | inr new =>
      obtain ⟨_, -, rfl⟩ := List.mem_map.mp new
      exact a.opened ▸ Nat.lt_succ_self s.opened
  passes := by
    intro k y found
    have added : Session.passedOver
        { s.exchange ⟨s.opened, x.channel, b⟩ x.events with running := s.running ++ more } k =
        s.passedOver k ++ if s.opened = k then x.passed k 0 else [] := by
      change List.filter _ (s.trace ++ x.events.map fun e => (⟨s.opened, x.channel, e⟩ : Happening)) = _
      rw [List.filter_append, Session.passedOver]
      by_cases same : s.opened = k <;> simp [same, Errand.passed]
    rcases Nat.lt_or_ge k xs.length with old | new
    · rw [List.getElem?_append_left old] at found
      obtain ⟨n, passed, kind, runs⟩ := a.passes found
      refine ⟨n, ?_, kind, fun isLent => (runs isLent).imp_right ?_⟩
      · rw [added, if_neg (a.opened ▸ old.ne'), passed, List.append_nil]
      · rintro ⟨r, runs, own⟩
        exact ⟨r, List.mem_append_left _ runs, own⟩
    · have last : k = xs.length := by
        have bound := (List.getElem?_eq_some_iff.mp found).1
        simp only [List.length_append, List.length_singleton] at bound
        omega
      subst last
      rw [List.getElem?_concat_length] at found
      obtain rfl := Option.some.inj found
      have none : s.passedOver xs.length = [] := List.filter_eq_nil_iff.mpr fun h member => by
        simpa using (a.trace h member).ne
      refine ⟨0, by rw [added, none, if_pos a.opened, List.nil_append], .inr rfl, fun isLent => .inr ?_⟩
      obtain ⟨r, member⟩ := List.exists_mem_of_ne_nil _ (lends isLent)
      exact ⟨r, List.mem_append_right _ member, by rw [(own r member).1, ← a.opened]⟩
  running := by
    intro r member
    cases List.mem_append.mp member with
    | inl before => exact (a.running r before).append [x]
    | inr new =>
      obtain ⟨same, isLent⟩ := own r new
      refine ⟨x, ?_, isLent, same ▸ rfl⟩
      rw [same, a.opened]
      exact List.getElem?_concat_length
  held := fun found c member => (a.held found c member).append [x]

theorem take (a : Accounted xs s) {x : Option Errand} (kept : ∀ y ∈ x, ¬ y.IsLent) :
    Accounted (xs ++ x.toList) (take s x) := by
  cases x with
  | none =>
    rw [Option.toList_none, List.append_nil]
    exact a
  | some x =>
    have served := a.serve x (s.hosts.behaviour x.channel) [] (List.forall_mem_nil _)
      fun isLent => absurd isLent (kept x rfl)
    exact served.congr rfl rfl (by simp [Executor.take, exchange, happen]) rfl

end Accounted

theorem finishAll_accounted {xs : List Errand} {s : Session} (a : Accounted xs s)
    (which : Running → Bool) : Accounted xs (finishAll s which) := by
  refine List.foldlRecOn (motive := Accounted xs) _ finish a fun s' a' r hr => ?_
  have lent := a.running r (List.mem_filter.mp hr).1
  have entered : Accounted xs (s'.updateHandle r.handle fun h =>
      h.complete (.ofOutcome r.task (Host.Exchange.awaited r.connection.behaviour))) :=
    a'.updateHandle_of_same r.handle fun _ => rfl
  refine entered.close lent (fun q hq => (List.mem_filter.mp hq).1) fun q hq => ?_
  by_cases same : q = r
  · exact .inr (same ▸ rfl)
  · exact .inl (List.mem_filter.mpr ⟨hq, by simpa using same⟩)

theorem pause_accounted {xs : List Errand} {s : Session} (a : Accounted xs s) :
    Accounted xs (pause s) := by
  unfold pause
  split
  · exact a
  · next which later _ =>
    have same : Accounted xs { s with meanwhile := later } := a.congr rfl rfl rfl rfl
    exact finishAll_accounted same which

theorem filterMap_cons_toList {α β : Type} (f : α → Option β) (a : α) (r : List α) :
    (a :: r).filterMap f = (f a).toList ++ r.filterMap f := by
  rw [List.filterMap_eq_flatMap_toList, List.flatMap_cons, ← List.filterMap_eq_flatMap_toList]

theorem not_isLent_of_errand? {e : Executor} {hosts : Host.Script} {label : Option String} {t : Task} :
    ∀ x ∈ e.errand? .waited hosts label t, ¬ x.IsLent := by
  unfold errand?
  rintro x made ⟨started, -⟩
  split at made
  · cases made
    cases started
  · cases made

theorem runTasks_accounted (e : Executor) (label : Option String) (tasks : List Task) (rs : Results)
    {xs : List Errand} {s : Session} (a : Accounted xs s) :
    Accounted (xs ++ tasks.filterMap (e.errand? .waited s.hosts label))
      (e.runTasks label tasks rs s).2 := by
  induction tasks generalizing rs xs s with
  | nil =>
    rw [List.filterMap_nil, List.append_nil]
    exact pause_accounted a
  | cons t r ih =>
    obtain ⟨log, ran⟩ := runTask_take e label t (pause s)
    have used : Accounted (xs ++ (e.errand? .waited s.hosts label t).toList)
        (e.runTask label t (pause s)).2 := by
      rw [ran, ← (pause_steady s).hosts]
      exact ((pause_accounted a).take not_isLent_of_errand?).congr rfl rfl rfl rfl
    have hosts : (e.runTask label t (pause s)).2.hosts = s.hosts :=
      (runTask_steady e label t _).hosts.trans (pause_steady s).hosts
    rw [filterMap_cons_toList, ← List.append_assoc, ← hosts]
    rw [← hosts] at used
    exact ih _ used

theorem single_accounted (host : String) (given : Command.Given) (user : Option Value)
    (identity : Value) (timeout : Option Value) {xs : List Errand} {s : Session} (a : Accounted xs s) :
    Accounted (xs ++ (Single.errand? s host given user identity timeout).toList)
      (exec (Single.execute host given user identity timeout) s).2 := by
  obtain ⟨processes, same⟩ := single_take host given user identity timeout s
  have waited : ∀ x ∈ Single.errand? s host given user identity timeout, ¬ x.IsLent := by
    unfold Single.errand?
    rintro x made ⟨started, -⟩
    dsimp only at made
    split at made
    · split at made
      · cases made
      · cases made
        cases started
    · cases made
  rw [same]
  exact (a.take waited).congr rfl rfl rfl rfl

theorem startTask_accounted (e : Executor) (label : Option String) (id position : Nat) (t : Task)
    {xs : List Errand} {s : Session} (a : Accounted xs s) :
    Accounted (xs ++ (e.errand? .started s.hosts label t).toList)
      (e.startTask label id position t s) := by
  rcases startTask_cases e label id position t s with
    ⟨why, log, -, unlent, same⟩ | ⟨x, c, -, made, lent, -, rfl, same⟩ <;> rw [same]
  · have noted : Accounted (xs ++ (e.errand? .started s.hosts label t).toList)
        { Executor.take s (e.errand? .started s.hosts label t) with log } :=
      (a.take unlent).congr rfl rfl rfl rfl
    exact noted.updateHandle_of_same id fun h => h.markIssueFailed_connections _
  · let r : Running := ⟨id, position, t, label, s.connection x.channel⟩
    have served := a.serve x r.connection.behaviour [r] (by simpa [r] using ⟨rfl, lent⟩)
      fun _ => List.cons_ne_nil _ _
    rw [made]
    refine served.updateHandle id fun h q member => ?_
    rw [Handle.markIssued_connections] at member
    obtain ⟨entry, there, rfl⟩ := List.mem_map.mp member
    cases Table.mem_entries_putAll there with
    | inl before => exact .inl (List.mem_map_of_mem before)
    | inr new =>
      obtain rfl := List.mem_singleton.mp new
      exact .inr (served.running r (List.mem_append_right _ (List.mem_singleton_self r)))

theorem startTasks_accounted (e : Executor) (label : Option String) (id position : Nat)
    (tasks : List Task) {xs : List Errand} {s : Session} (a : Accounted xs s) :
    Accounted (xs ++ tasks.filterMap (e.errand? .started s.hosts label))
      (e.startTasks label id position tasks s) := by
  induction tasks generalizing position xs s with
  | nil =>
    rw [List.filterMap_nil, List.append_nil]
    exact pause_accounted a
  | cons t r ih =>
    have started := startTask_accounted e label id position t (pause_accounted a)
    have hosts : (e.startTask label id position t (pause s)).hosts = s.hosts :=
      (startTask_steady e label id position t _).hosts.trans (pause_steady s).hosts
    rw [filterMap_cons_toList, ← List.append_assoc, ← hosts]
    rw [(pause_steady s).hosts, ← hosts] at started
    exact ih (position + 1) started

theorem dispatch_accounted (e : Executor) (label : Option String) (tasks : List Task)
    {xs : List Errand} {s : Session} (a : Accounted xs s) :
    Accounted (xs ++ tasks.filterMap (e.errand? .started s.hosts label))
      (exec (e.dispatch label tasks) s).2 := by
  have begun : Accounted xs { s with handles := s.handles ++ [{ tasks }] } := by
    refine ⟨a.opened, a.trace, a.passes, a.running, fun {id h} found c member => ?_⟩
    rcases List.mem_append.mp (List.mem_of_getElem? found) with before | new
    · obtain ⟨j, there⟩ := List.getElem?_of_mem before
      exact a.held there c member
    · rw [List.mem_singleton.mp new] at member
      cases member
  have started := startTasks_accounted e label s.handles.length 0 tasks begun
  rw [dispatch_snd]
  dsimp only
  split
  · exact started
  · exact finishAll_accounted started _

theorem close_accounted (id : Nat) {xs : List Errand} {s : Session} (a : Accounted xs s) :
    Accounted xs (exec (close id) s).2 := by
  cases found : s.handle? id with
  | none =>
    rw [close, exec_modify, found]
    exact a
  | some h =>
    rw [exec_close_of_handle found]
    have given : Accounted xs (s.updateHandle id fun h => h.close.1) :=
      a.updateHandle_of_same id fun _ => rfl
    refine List.foldlRecOn (motive := Accounted xs) h.connections.values hangUp given ?_
    exact fun s' a' c member => (pause_accounted a').close (a.held found c member)
      (fun _ runs => runs) fun _ runs => .inl runs

theorem apply_accounted (m : Move) {xs : List Errand} {s : Session} (a : Accounted xs s) :
    Accounted (xs ++ m.errands s) (m.apply s) := by
  cases m with
  | execute e label tasks =>
    obtain ⟨rs, same⟩ := e.execute_told label tasks s
    rw [Move.apply, same]
    exact (runTasks_accounted e label tasks .empty a).congr rfl rfl rfl rfl
  | dispatch e label tasks => exact dispatch_accounted e label tasks a
  | single host given user identity timeout =>
    exact single_accounted host given user identity timeout a
  | join id => exact (List.append_nil xs).symm ▸ pause_accounted a
  | close id => exact (List.append_nil xs).symm ▸ close_accounted id a
  | ended which => exact (List.append_nil xs).symm ▸ finishAll_accounted a which
  | hostsBecame hosts => exact (List.append_nil xs).symm ▸ a.congr rfl rfl rfl rfl

theorem after_accounted (ms : List Move) {xs : List Errand} {s : Session} (a : Accounted xs s) :
    Accounted (xs ++ errandsOf ms s) (after ms s) := by
  -- Whatever a move opens connections for comes behind the errands so far.
  induction ms generalizing xs s with
  | nil => exact (List.append_nil xs).symm ▸ a
  | cons m ms ih =>
    rw [errandsOf, ← List.append_assoc]
    exact ih (apply_accounted m a)

namespace Errand

theorem isLent_iff (x : Errand) : x.IsLent ↔ x.way = .started ∧ x.behaviour.connectError = none ∧
    x.behaviour.useFailure? x.command = none := by
  rw [IsLent, Host.Exchange.outcome_launch]
  cases x.behaviour.connectError <;> cases x.behaviour.useFailure? x.command <;>
    simp [Host.comesTo]

theorem events_cases (x : Errand) :
    x.events = x.course ∨ x.way = .waited ∧ ∃ n, x.cut = some (n + 1) ∧ x.events = x.course.take (n + 1) := by
  unfold events
  cases way : x.way with
  | started => exact .inl rfl
  | waited =>
    rcases cut : x.cut with _ | _ | n
    · exact .inl rfl
    · exact absurd cut x.begun
    · exact .inr ⟨rfl, n, rfl, rfl⟩

theorem events_of_refused {x : Errand} {why : String} (refused : x.behaviour.connectError = some why) :
    x.events = [x.access.event] := by
  have course : x.course = [x.access.event] := by
    unfold course
    cases x.way with
    | waited => exact Host.Exchange.events_of_refused refused _ _
    | started => exact Host.Exchange.events_of_refused refused _ _
  rcases x.events_cases with whole | ⟨-, n, -, cut⟩
  · exact whole.trans course
  · rw [cut, course, List.take_succ_cons, List.take_nil]

theorem course_of_connected {x : Errand} (connected : x.behaviour.connectError = none) :
    ∃ n, x.course = x.access.event :: (Host.Exchange.used x.behaviour x.command.uploads
        (Host.call x.command x.way) ++ .replicate n .close) ∧
      (x.IsLent ∧ n = 0 ∨ ¬ x.IsLent ∧ n = 1) := by
  rw [isLent_iff]
  unfold course
  cases way : x.way with
  | waited =>
    exact ⟨1, Host.Exchange.events_complete_of_connected connected _ _, .inr ⟨by simp, rfl⟩⟩
  | started =>
    have launched := Host.Exchange.events_launch_of_connected connected x.access x.command
    cases failed : x.behaviour.useFailure? x.command with
    | none =>
      rw [failed] at launched
      exact ⟨0, launched, .inl ⟨⟨rfl, connected, rfl⟩, rfl⟩⟩
    | some why =>
      rw [failed] at launched
      exact ⟨1, launched, .inr ⟨by simp, rfl⟩⟩

theorem orderly_course {x : Errand} (connected : x.behaviour.connectError = none) {n : Nat}
    (kind : x.IsLent ∨ n = 0) :
    let events := x.course ++ .replicate n .close
    Host.Exchange.Orderly x.behaviour x.access x.command x.way events ∧
      (x.way = .waited → events.count .close = 1) ∧ (¬ x.IsLent ∨ n ≠ 0 → .close ∈ events) := by
  intro events
  obtain ⟨m, shape, closed⟩ := course_of_connected connected
  have whole : events = x.access.event :: (Host.Exchange.used x.behaviour x.command.uploads
      (Host.call x.command x.way) ++ .replicate (m + n) .close) := by
    rw [← List.replicate_append_replicate, ← List.append_assoc, ← List.cons_append, ← shape]
  have count : events.count .close = m + n := whole ▸ Host.Exchange.count_close ..
  refine ⟨whole ▸ Host.Exchange.orderly .., fun waited => ?_, fun closing => ?_⟩
  · have unlent : ¬ x.IsLent := by simp [x.isLent_iff, waited]
    rw [count, kind.resolve_left unlent, (closed.resolve_left fun lent => unlent lent.1).2]
  · rw [← List.count_pos_iff, count]
    rcases closed with ⟨lent, -⟩ | ⟨-, once⟩
    · have more : n ≠ 0 := closing.resolve_left fun unlent => unlent lent
      omega
    · omega

/-- Where there was no time to close it, it has been used as it should be so far. -/
theorem orderly_events {x : Errand} (connected : x.behaviour.connectError = none) {n : Nat}
    (kind : x.IsLent ∨ n = 0) :
    let events := x.events ++ .replicate n .close
    Host.Exchange.Orderly x.behaviour x.access x.command x.way events ∧
      (x.way = .waited → events.count .close ≤ 1 ∧ (x.cut = none → events.count .close = 1)) ∧
      (¬ x.IsLent ∨ n ≠ 0 → .close ∈ events ∨ x.way = .waited ∧ x.cut = some events.length) := by
  obtain ⟨orderly, once, closes⟩ := orderly_course connected kind
  rcases x.events_cases with whole | ⟨waited, m, cut, taken⟩
  · rw [whole]
    exact ⟨orderly, fun waited => ⟨(once waited).le, fun _ => once waited⟩, fun h => .inl (closes h)⟩
  · have unlent : ¬ x.IsLent := by simp [x.isLent_iff, waited]
    obtain rfl := kind.resolve_left unlent
    rw [List.replicate_zero, List.append_nil] at orderly once closes ⊢
    have initial : x.events <+: x.course := taken ▸ List.take_prefix _ _
    obtain ⟨rest, shape, -⟩ := orderly.opens
    refine ⟨orderly.cut initial (by simp [taken, shape]), fun _ => ⟨?_, by simp [cut]⟩, fun _ => ?_⟩
    · exact (initial.sublist.count_le .close).trans (once waited).le
    · rcases Nat.lt_or_ge m x.course.length with short | long
      · exact .inr ⟨waited, by rw [cut, taken, List.length_take_of_le short]⟩
      · rw [taken, List.take_of_length_le (by omega)]
        exact .inl (closes (.inl unlent))

end Errand

end Executor
end Flotilla
