import Flotilla.Proofs.Executor.Custody
import Flotilla.Proofs.Lifecycle.Restart

/-! What a controller leaves open. Its barriers leave nothing; helpers and daemons keep their
connections for as long as they run, until the controller gives them up. It does so before it stops
the units, so that no stop ever meets a connection of the run before. -/
namespace Flotilla.Lifecycle
open Executor Session

/-- The handles whose commands may be running: none from a stop on until helpers are started again. -/
def Progress.live (p : Progress) : List Nat :=
  match p.phase with
  | .helpersStarted => p.helpers.toList
  | .running => p.helpers.toList ++ p.daemons.toList
  | _ => []

theorem Progress.mem_handles_of_mem_live {p : Progress} {i : Nat} (h : i ∈ p.live) :
    i ∈ p.helpers.toList ++ p.daemons.toList := by
  unfold live at h
  split at h
  · exact List.mem_append_left _ h
  · exact h
  · cases h

def IsOfRun (h : Happening) : Prop :=
  h.channel.label = some helpersLabel ∨ h.channel.label = some daemonsLabel

/-- Wherever a stop opens a connection, all that helpers and daemons have used are closed. -/
def StopsAlone (hs : List Happening) : Prop :=
  ∀ past h rest, hs = past ++ h :: rest → h.event.opens → h.channel.label = some stopLabel →
    ∀ x ∈ past, IsOfRun x → x.event.opens = false → IsClosed past x.connection

theorem mem_openings {hs : List Happening} {h : Happening} (member : h ∈ hs) (opens : h.event.opens) :
    h.channel ∈ openings hs := by
  refine List.mem_filterMap.mpr ⟨h, member, ?_⟩
  unfold Happening.opening?
  cases event : h.event <;> simp_all [Host.Event.opens]

namespace StopsAlone
variable {hs new : List Happening}

theorem append (alone : StopsAlone hs)
    (later : ∀ past h rest, new = past ++ h :: rest → h.event.opens →
      h.channel.label = some stopLabel → ∀ x ∈ hs ++ past, IsOfRun x → x.event.opens = false →
        IsClosed (hs ++ past) x.connection) : StopsAlone (hs ++ new) := by
  intro past h rest split
  rcases List.append_eq_append_iff.mp split with ⟨during, rfl, cut⟩ | ⟨_ | ⟨y, before⟩, cut, joined⟩
  · exact later during h rest cut
  · obtain rfl : past = hs := by simpa using cut.symm
    simpa using later [] h rest joined.symm
  · obtain ⟨rfl, -⟩ := List.cons.inj joined
    exact alone past h before cut

theorem quiet (alone : StopsAlone hs)
    (calm : ∀ h ∈ new, h.event.opens → h.channel.label ≠ some stopLabel) : StopsAlone (hs ++ new) :=
  alone.append fun _ h _ cut opens label => absurd label (calm h (by simp [cut]) opens)

theorem stop (alone : StopsAlone hs) (shut : ∀ k, ¬ IsOpen hs k)
    (own : ∀ h ∈ new, h.event = .close ∨ h.channel.label = some stopLabel) :
    StopsAlone (hs ++ new) := by
  refine alone.append fun past h rest cut _ _ x hx ofRun used => ?_
  cases List.mem_append.mp hx with
  | inl before =>
    by_contra unclosed
    exact shut x.connection ⟨⟨x, before, rfl, used⟩, fun closed => unclosed (closed.append past)⟩
  | inr during =>
    cases own x (by simp [cut, during]) with
    | inl closing => exact ⟨x, hx, rfl, closing⟩
    | inr label =>
      rw [IsOfRun, label] at ofRun
      exact absurd ofRun (by decide)

theorem opens {s s' : Session} {opened : List Host.Channel} (alone : StopsAlone s.trace)
    (opens : s.Opens s' opened) (others : ∀ channel ∈ opened, channel.label ≠ some stopLabel) :
    StopsAlone s'.trace := by
  obtain ⟨said, grows⟩ := opens
  obtain ⟨new, passed, rfl⟩ := grows.trace
  rw [passed]
  exact alone.quiet fun h member opens => others _ (mem_openings member opens)

theorem wane {s s' : Session} (alone : StopsAlone s.trace) (w : s.Wanes s') :
    StopsAlone s'.trace := by
  obtain ⟨new, passed, closings⟩ := w.trace
  rw [passed]
  refine alone.quiet fun h member opens => ?_
  rw [closings h member] at opens
  cases opens

end StopsAlone
namespace Controller

theorem closeAll_tended {ids ids' : List Nat} (js : List Nat) {s : Session} (tended : s.Tended ids)
    (others : ∀ i ∈ ids, i ∈ js ∨ i ∈ ids') : (closeAll js s).Tended ids' := by
  induction js generalizing s ids with
  | nil => exact tended.mono fun i hi => (others i hi).resolve_left List.not_mem_nil
  | cons j r ih =>
    have left : ∀ i ∈ ids, i = j ∨ i ∈ r ++ ids' := by simpa [or_assoc] using others
    exact ih (close_tended tended j left) fun _ => List.mem_append.mp

/-- What is live when a transition comes to its fan-out: the helpers, for their daemons. -/
theorem ready_tended {c : Controller} {t : Transition} {p : Progress} (admitted : c.Admits t p)
    (tended : p.session.Tended p.live) :
    (c.ready t p).session.Tended (if t = .startDaemons then p.helpers.toList else []) := by
  have noted {s : Session} {ids : List Nat} (tended : s.Tended ids) :
      (s.note .caller (c.line t)).Tended ids := tended.congr rfl rfl rfl
  obtain ⟨source, -⟩ := admitted
  cases t with
  | stop =>
    rw [ready, if_pos rfl, exec_close]
    exact noted (closeAll_tended _ tended fun _ => .inl ∘ Progress.mem_handles_of_mem_live)
  | reloadUnits =>
    have phase : p.phase = .stopped := List.mem_singleton.mp source
    rw [Progress.live, phase] at tended
    exact noted tended
  | startHelpers =>
    have phase : p.phase = .stopped ∨ p.phase = .unitsReloaded := by
      rw [sources] at source
      split at source <;> simp_all
    have none : p.live = [] := by
      rcases phase with phase | phase <;> rw [Progress.live, phase]
    exact noted (none ▸ tended)
  | startDaemons =>
    have phase : p.phase = .helpersStarted := List.mem_singleton.mp source
    rw [Progress.live, phase] at tended
    exact noted tended

structure InCustody (p : Progress) : Prop where
  tended : p.session.Tended p.live
  alone : StopsAlone p.session.trace

theorem stopsAlone_step (c : Controller) {p : Progress} (custody : InCustody p) (k : Step) :
    StopsAlone (exec (c.perform k) p).2.session.trace := by
  rcases c.entry_cases k p with ⟨-, -, -, -, opens⟩ | ⟨t, rfl, admitted, made, -⟩
  · exact custody.alone.opens opens (List.forall_mem_nil _)
  · by_cases stops : t = .stop
    · subst stops
      obtain ⟨s, ready, opens, -⟩ := c.ready_eq .stop p
      have begun := ready_tended admitted custody.tended
      rw [ready] at begun
      have alone : StopsAlone s.trace := custody.alone.opens opens (List.forall_mem_nil _)
      obtain ⟨new, passed, own⟩ :=
        (c.executor.execute_settles (some stopLabel) (c.tasks .stop) s).trace
      rw [c.exec_admitted admitted, ready, c.session_fanOut_barrier rfl]
      change StopsAlone (exec (c.executor.execute (some stopLabel) _) s).2.trace
      rw [passed]
      refine alone.stop (fun k isOpen => ?_) own
      obtain ⟨_, _, _, ⟨⟩⟩ := begun.attended isOpen
    · refine custody.alone.opens made.opens fun channel member label => stops ?_
      obtain ⟨task, -, rfl⟩ := List.mem_map.mp member
      exact Transition.label_injective (Option.some.inj label)

section
variable {c : Controller} {nodes : List Node} {r : Fleet.Request}
  (resolved : Fleet.resolve nodes r = .ok c.fleet)
include resolved

theorem transition_tended {t : Transition} {p : Progress} (admitted : c.Admits t p)
    (tended : p.session.Tended p.live) :
    (exec (c.perform (.transition t)) p).2.session.Tended
      (exec (c.perform (.transition t)) p).2.live := by
  have begun := ready_tended admitted tended
  obtain ⟨s, ready, -⟩ := c.ready_eq t p
  rw [c.exec_admitted admitted]
  rw [ready] at begun ⊢
  by_cases barrier : t.isBarrier
  · have settled := (c.executor.execute_settles (some t.label) (c.tasks t) s).tended begun
    have alone : t ≠ .startDaemons := by
      rintro rfl
      cases barrier
    rw [if_neg alone] at settled
    rw [c.session_fanOut_barrier barrier]
    exact settled.mono nofun
  · obtain ⟨s', h, issued, -, found, -⟩ :=
      exec_dispatch c.executor (some t.label) (c.tasks t) s
    have left := c.executor.dispatch_tended (some t.label) (nodup_task_keys resolved t) begun
    rw [issued] at left
    rw [c.exec_fanOut_issue barrier issued found]
    cases t with
    | startHelpers => exact left
    | startDaemons => exact left.mono fun i hi => by simpa [Progress.live, enlist, Transition.rest, or_comm] using hi
    | _ => exact absurd rfl barrier

theorem inCustody_step {p : Progress} (k : Step) (custody : InCustody p) :
    InCustody (exec (c.perform k) p).2 := by
  refine ⟨?_, c.stopsAlone_step custody k⟩
  cases k with
  | transition t =>
    by_cases admitted : c.Admits t p
    · exact transition_tended resolved admitted custody.tended
    · obtain ⟨why, refused⟩ := c.exec_refused admitted
      rw [refused]
      exact custody.tended
  | supervise =>
    obtain ⟨s, report, looked, -, wanes, -⟩ := c.exec_supervise p
    rw [perform, exec_bind_ok looked]
    exact custody.tended.wane wanes
  | close =>
    rw [perform, exec_close]
    exact closeAll_tended _ custody.tended fun _ => .inr

theorem inCustody_after {p : Progress} (custody : InCustody p) (moves : List Move) :
    InCustody (c.after moves p) :=
  c.after_induction (inCustody_step resolved)
    (fun which custody => ⟨custody.tended.wane (finishAll_wanes _ which),
      custody.alone.wane (finishAll_wanes _ which)⟩)
    (fun _ custody => ⟨custody.tended.congr rfl rfl rfl, custody.alone⟩) moves custody

/-- Whatever a controller is called to do, and however its hosts behave: a connection that is open
between calls is that of a running command of its present helpers or daemons. Where a stop opens a
connection, all that helpers and daemons have used are closed; and once the controller has given up
what it started, none is open at all. -/
theorem open_only_while_running {s : Session} (unused : s.trace = []) (idle : s.running = [])
    (report : Report) (moves : List Move) :
    let p := c.after moves (.new s report)
    (∀ k, IsOpen p.session.trace k → ∃ q ∈ p.session.running, q.connection.id = k ∧
      (p.helpers = some q.handle ∨ p.daemons = some q.handle)) ∧
    (∀ past h rest, p.session.trace = past ++ h :: rest → h.event.opens →
      h.channel.label = some stopLabel → ∀ x ∈ past,
        x.channel.label = some helpersLabel ∨ x.channel.label = some daemonsLabel →
          x.event.opens = false → IsClosed past x.connection) ∧
    ∃ q, exec close p = (.ok ⟨⟩, q) ∧ ∀ k, ¬ IsOpen q.session.trace k := by
  intro p
  have fresh : InCustody (.new s report) := by
    have shut : ∀ {k}, ¬ IsOpen (Progress.new s report).session.trace k := by
      rintro k ⟨⟨h, member, -⟩, -⟩
      rw [Progress.new, unused] at member
      cases member
    refine ⟨⟨?_, fun isOpen => absurd isOpen shut⟩, ?_⟩
    · rw [Progress.new, idle]
      exact List.forall_mem_nil _
    · rintro past h rest split
      simp [Progress.new, unused] at split
  obtain ⟨tended, alone⟩ := inCustody_after resolved fresh moves
  refine ⟨fun k isOpen => ?_, alone, _, exec_close p, fun k isOpen => ?_⟩
  · obtain ⟨q, hq, same, live⟩ := tended.attended isOpen
    refine ⟨q, hq, same, ?_⟩
    simpa using Progress.mem_handles_of_mem_live live
  · have given : (closeAll _ p.session).Tended [] :=
      closeAll_tended _ tended fun _ => .inl ∘ Progress.mem_handles_of_mem_live
    obtain ⟨_, _, _, ⟨⟩⟩ := given.attended isOpen

end

/-- Of two runs whose connections cannot be closed properly, the second has its own open at the end. The
helpers of the first are still running then, but theirs was closed before the second stop. -/
theorem second_run_open :
    ∃ fleet, Fleet.resolve [⟨0, "host"⟩] {} = .ok fleet ∧
      let c : Controller := ⟨fleet, ⟨⟨none, none, none⟩, []⟩, true, "dir"⟩
      let hosts : Host.Script := [⟨none, none, none, { closeError := some "reset" }⟩]
      let s : Session := .new hosts ⟨.empty, "/", "/", "/tmp", []⟩ "1"
      let moves : List Move :=
        [.call .run, .ended fun r => r.label = some daemonsLabel, .call .run]
      s.trace = [] ∧ s.running = [] ∧ ∃ p, c.after moves (.new s .empty) = p ∧
        p.session.running.map (·.connection.id) = [3, 8, 9] ∧ IsOpen p.session.trace 8 ∧
        (∃ q ∈ p.session.running, q.connection.id = 8 ∧
          (p.helpers = some q.handle ∨ p.daemons = some q.handle)) ∧
        (∃ past h rest, p.session.trace = past ++ h :: rest ∧ h.connection = 5 ∧ h.event.opens ∧
          h.channel.label = some stopLabel ∧ IsClosed past 3) ∧
        ∃ q, exec close p = (.ok ⟨⟩, q) ∧ ¬ IsOpen q.session.trace 8 := by
  refine ⟨_, rfl, ?_⟩
  intro c hosts s moves
  have resolved : Fleet.resolve [⟨0, "host"⟩] {} = .ok c.fleet := rfl
  have unused : s.trace = [] := rfl
  have idle : s.running = [] := rfl
  obtain ⟨tended, alone, q, closed, shut⟩ :=
    open_only_while_running resolved unused idle .empty moves
  obtain ⟨p, ran⟩ : ∃ p, c.after moves (.new s .empty) = p := ⟨_, rfl⟩
  rw [ran] at tended alone closed
  have running : p.session.running.map (·.connection.id) = [3, 8, 9] := by
    rw [← ran]
    decide +kernel
  have isOpen : IsOpen p.session.trace 8 := by
    rw [← ran]
    decide +kernel
  obtain ⟨h, first, five, opens, stops⟩ : ∃ h ∈ (p.session.trace.drop 16).head?,
      h.connection = 5 ∧ h.event.opens ∧ h.channel.label = some stopLabel := by
    rw [← ran]
    decide +kernel
  obtain ⟨x, hx, three, label, used⟩ : ∃ x ∈ p.session.trace.take 16, x.connection = 3 ∧
      x.channel.label = some helpersLabel ∧ x.event.opens = false := by
    rw [← ran]
    decide +kernel
  obtain ⟨rest, later⟩ := List.head?_eq_some_iff.mp first
  have split : p.session.trace = p.session.trace.take 16 ++ h :: rest := by
    rw [← later, List.take_append_drop]
  have before := alone _ h rest split opens stops x hx (.inl label) used
  rw [three] at before
  exact ⟨unused, idle, p, ran, running, isOpen, tended 8 isOpen,
    ⟨_, h, rest, split, five, opens, stops, before⟩, q, closed, shut 8⟩

end Controller
end Flotilla.Lifecycle
