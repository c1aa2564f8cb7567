import Flotilla.Proofs.Lifecycle.History

/-! Helpers before daemons. The handle of the helpers outlives a stop, so that it is issued says
nothing by itself: that it belongs to the present run is what the phases see to. -/
namespace Flotilla.Lifecycle
open Executor

def Phase.isUnderWay : Phase → Bool
  | stopped => true
  | unitsReloaded => true
  | helpersStarted => true
  | _ => false

theorem Phase.isResting_of_isUnderWay {p : Phase} (h : p.isUnderWay) : p.isResting := by
  cases p <;> first | rfl | exact h

/-- The helpers that a controller knows are those that the entry made, and all are dealt with. -/
def Entry.Issued (e : Entry) (c : Controller) (p : Progress) : Prop :=
  ∃ id h, e.before.session.handle? id = none ∧ e.after.helpers = some id ∧
    p.helpers = some id ∧ p.session.handle? id = some h ∧ h.tasks = c.helperTasks ∧ h.allIssued

theorem Entry.Issued.keep {e : Entry} {c : Controller} {p p' : Progress} (h : e.Issued c p)
    (same : p'.helpers = p.helpers) (keeps : p.session.Keeps p'.session) : e.Issued c p' := by
  obtain ⟨id, h, new, made, known, found, tasks, all⟩ := h
  obtain ⟨h', found', grows⟩ := keeps found
  exact ⟨id, h', new, made, same.trans known, found', grows.tasks.trans tasks, grows.allIssued all⟩

namespace Controller

def OnlyReloads (c : Controller) (since : List Entry) : Prop :=
  ∀ x ∈ since, x.IsIdle ∨ x.Does c .reloadUnits

/-- What has come since the last stop, in the phases that lead from it to the daemons. -/
def Led (c : Controller) (since : List Entry) (p : Progress) : Phase → Prop
  | .stopped => ∀ x ∈ since, x.IsIdle
  | .unitsReloaded => c.OnlyReloads since ∧ ∃ x ∈ since, x.Does c .reloadUnits
  | .helpersStarted => ∃ between helpers after, since = between ++ helpers :: after ∧
      c.OnlyReloads between ∧ (c.reloads → ∃ x ∈ between, x.Does c .reloadUnits) ∧
      helpers.Does c .startHelpers ∧ helpers.Issued c p ∧ ∀ x ∈ after, x.IsIdle
  | _ => False

/-- What every step preserves: under way, there has been a stop, and what came since has led here. -/
def Upheld (c : Controller) (past : List Entry) (p : Progress) : Prop :=
  p.phase.isUnderWay →
    ∃ before stop since, past = before ++ stop :: since ∧ stop.Does c .stop ∧ c.Led since p p.phase

theorem Led.keep {c : Controller} {since : List Entry} {p p' : Progress} {phase : Phase}
    (h : c.Led since p phase) (same : p'.helpers = p.helpers)
    (keeps : p.session.Keeps p'.session) : c.Led since p' phase := by
  cases phase with
  | helpersStarted =>
    obtain ⟨between, helpers, after, split, only, reloaded, does, issued, idle⟩ := h
    exact ⟨between, helpers, after, split, only, reloaded, does, issued.keep same keeps, idle⟩
  | _ => exact h

theorem Led.idle {c : Controller} {since : List Entry} {p : Progress} {phase : Phase} {e : Entry}
    (h : c.Led since p phase) (idle : e.IsIdle) : c.Led (since ++ [e]) p phase := by
  cases phase with
  | stopped => exact List.forall_mem_append.mpr ⟨h, by simpa using idle⟩
  | unitsReloaded =>
    obtain ⟨only, x, hx, does⟩ := h
    exact ⟨List.forall_mem_append.mpr ⟨only, by simpa using .inl idle⟩,
      x, List.mem_append_left _ hx, does⟩
  | helpersStarted =>
    obtain ⟨between, helpers, after, rfl, only, reloaded, does, issued, rest⟩ := h
    exact ⟨between, helpers, after ++ [e], by simp, only, reloaded, does, issued,
      List.forall_mem_append.mpr ⟨rest, by simpa using idle⟩⟩
  | _ => exact h.elim

theorem Led.prepared {c : Controller} {since : List Entry} {p : Progress}
    (h : c.Led since p p.phase) (admitted : p.phase ∈ c.sources .startHelpers) :
    c.OnlyReloads since ∧ (c.reloads → ∃ x ∈ since, x.Does c .reloadUnits) := by
  simp only [sources] at admitted
  cases phase : p.phase with
  | stopped =>
    rw [phase] at h admitted
    refine ⟨fun x hx => .inl (h x hx), fun reloads => ?_⟩
    simp [reloads] at admitted
  | unitsReloaded =>
    rw [phase] at h
    exact ⟨h.1, fun _ => h.2⟩
  | _ =>
    rw [phase] at admitted
    split at admitted <;> simp at admitted

theorem isUnderWay_of_mem_sources {c : Controller} {phase : Phase}
    (h : phase ∈ c.sources .startHelpers) : phase.isUnderWay := by
  simp only [sources] at h
  cases phase <;> first | rfl | split at h <;> simp at h

theorem Upheld.idle {c : Controller} {past : List Entry} {e : Entry} (h : c.Upheld past e.before)
    (idle : e.IsIdle) (phase : e.after.phase = e.before.phase)
    (helpers : e.after.helpers = e.before.helpers)
    (keeps : e.before.session.Keeps e.after.session) : c.Upheld (past ++ [e]) e.after := by
  intro within
  rw [phase] at within ⊢
  obtain ⟨before, stop, since, rfl, does, led⟩ := h within
  exact ⟨before, stop, since ++ [e], by simp, does, (led.idle idle).keep helpers keeps⟩

theorem Upheld.made {c : Controller} {past : List Entry} {e : Entry} {t : Transition}
    (h : c.Upheld past e.before) (step : e.step = .transition t) (admitted : c.Admits t e.before)
    (made : c.Made t e.before e.after e.outcome) (opened : e.opened = c.channels t) :
    c.Upheld (past ++ [e]) e.after := by
  intro within
  obtain ⟨returned, phase⟩ := made.returned (Phase.isResting_of_isUnderWay within)
  have does : e.Does c t := ⟨step, returned, opened⟩
  rw [phase]
  cases t with
  | stop => exact ⟨past, e, [], rfl, does, List.forall_mem_nil _⟩
  | reloadUnits =>
    have stopped : e.before.phase = .stopped := List.mem_singleton.mp admitted.1
    obtain ⟨before, stop, since, rfl, did, led⟩ := h (by rw [stopped]; rfl)
    rw [stopped] at led
    refine ⟨before, stop, since ++ [e], by simp, did, ?_, e, List.mem_concat_self, does⟩
    exact List.forall_mem_append.mpr ⟨fun x hx => .inl (led x hx), by simpa using .inr does⟩
  | startHelpers =>
    obtain ⟨before, stop, since, rfl, did, led⟩ := h (isUnderWay_of_mem_sources admitted.1)
    obtain ⟨only, reloaded⟩ := led.prepared admitted.1
    obtain ⟨id, handle, new, known, found, tasks, all⟩ := made.created rfl
    exact ⟨before, stop, since ++ [e], by simp, did, since, e, [], rfl, only, reloaded, does,
      ⟨id, handle, new, known, known, found, tasks, all⟩, List.forall_mem_nil _⟩
  | startDaemons =>
    rw [phase] at within
    cases within

theorem upheld_step (c : Controller) {past : List Entry} {p : Progress} (k : Step)
    (h : c.Upheld past p) : c.Upheld (past ++ [c.entry k p]) (c.entry k p).after := by
  rcases c.entry_cases k p with
    ⟨idle, -, phase, helpers, said, grows⟩ | ⟨t, rfl, admitted, made, opened⟩
  · exact Upheld.idle h idle phase helpers grows.handles
  · exact Upheld.made h rfl admitted made opened

theorem upheld_aside (c : Controller) {past : List Entry} {p : Progress} {s : Session}
    (lasts : p.session.Lasts s) (h : c.Upheld past p) :
    c.Upheld past { p with session := s } := by
  intro within
  obtain ⟨before, stop, since, split, does, led⟩ := h within
  exact ⟨before, stop, since, split, does, led.keep rfl lasts.handles⟩

theorem upheld_history (c : Controller) (moves : List Move) (s : Session) (report : Report) :
    c.Upheld (c.history moves (.new s report)) (c.after moves (.new s report)) := by
  have start : c.Upheld [] (.new s report) := nofun
  exact c.history_induction (I := c.Upheld) c.upheld_step c.upheld_aside moves start

theorem Upheld.helpersIssued {c : Controller} {past : List Entry} {p : Progress}
    (h : c.Upheld past p) (phase : p.phase = .helpersStarted) : helpersIssued p := by
  obtain ⟨_, _, _, _, _, led⟩ := h (by rw [phase]; rfl)
  rw [phase] at led
  obtain ⟨_, _, _, _, _, _, _, ⟨id, handle, _, _, known, found, _, all⟩, _⟩ := led
  simpa [Controller.helpersIssued, known, found] using all

/-- Only a fan-out of daemons connects to daemons, and only when the helpers are there. -/
theorem startDaemons_of_connected {c : Controller} {k : Step} {p : Progress}
    {channel : Host.Channel} (h : channel ∈ (c.entry k p).opened)
    (daemon : channel.label = some daemonsLabel) :
    (c.entry k p).Does c .startDaemons ∧ p.phase = .helpersStarted := by
  rcases c.entry_cases k p with ⟨idle, -⟩ | ⟨t, rfl, admitted, made, opened⟩
  · rw [idle.1] at h
    cases h
  · obtain ⟨task, -, rfl⟩ := List.mem_map.mp (opened ▸ h)
    obtain rfl : t = .startDaemons := Transition.label_injective (Option.some.inj daemon)
    have returned : (c.entry (.transition .startDaemons) p).outcome = .ok ⟨⟩ := by
      cases outcome : (c.entry (.transition .startDaemons) p).outcome with
      | ok u => rfl
      | error f => simpa [outcome, Except.isOk, Except.toBool] using made.issues (by decide)
    exact ⟨⟨rfl, returned, opened⟩, List.mem_singleton.mp admitted.1⟩

/-- Whatever is called in whatever order: where a daemon is connected to, its fan-out is complete, a
stop has returned before, and since the latest such stop there has been one fan-out of the helpers,
one to an instance, all of them dealt with by then, after a reload of the units on all nodes if one is
asked for, and no other fan-out of helpers or daemons. -/
theorem daemons_after_helpers (c : Controller) (s : Session) (report : Report) (moves : List Move)
    {past future : List Entry} {e : Entry}
    (happened : c.history moves (.new s report) = past ++ e :: future)
    (connected : ∃ channel ∈ e.opened, channel.label = some daemonsLabel) :
    ∃ before stop between helpers after,
      past = before ++ stop :: (between ++ helpers :: after) ∧
      stop.Does c .stop ∧ helpers.Does c .startHelpers ∧ e.Does c .startDaemons ∧
      (∀ x ∈ between, x.IsIdle ∨ x.Does c .reloadUnits) ∧
      (c.reloads → ∃ x ∈ between, x.Does c .reloadUnits) ∧
      (∀ x ∈ after, x.IsIdle) ∧ helpers.Issued c e.before := by
  have start : c.Upheld [] (.new s report) := nofun
  obtain ⟨upheld, taken⟩ :=
    c.history_split (I := c.Upheld) c.upheld_step c.upheld_aside start happened
  obtain ⟨channel, opened, daemon⟩ := connected
  rw [taken] at opened
  obtain ⟨does, phase⟩ := startDaemons_of_connected opened daemon
  rw [← taken] at does
  obtain ⟨before, stop, since, rfl, stopped, led⟩ := upheld (by rw [phase]; rfl)
  rw [phase] at led
  obtain ⟨between, helpers, after, rfl, only, reloaded, helped, issued, idle⟩ := led
  exact ⟨before, stop, between, helpers, after, rfl, stopped, helped, does, only, reloaded, idle,
    issued⟩

/-- Of two runs, the daemons of the second come after helpers of their own. -/
theorem second_daemons_after_helpers :
    let n : Node := ⟨0, "host"⟩
    let t : Topology := ⟨"host:27736", 1⟩
    let scenario : Scenario := ⟨.standard, 10, 100, .text "inputs"⟩
    let fleet : Fleet := ⟨[n], t, scenario, [Fleet.place t scenario n Fleet.firstSlot]⟩
    let c : Controller := ⟨fleet, ⟨⟨none, none, none⟩, []⟩, true, "dir"⟩
    let start : Progress := .new (.new [] ⟨.empty, "/", "/", "/tmp", []⟩ "1") .empty
    let h := c.history [.call .run, .ended fun _ => true, .call .run] start
    ∃ past e, h = past ++ [e] ∧ (∃ channel ∈ e.opened, channel.label = some daemonsLabel) ∧
      ∃ helpers ∈ past, helpers.Does c .startHelpers ∧ helpers.Issued c e.before := by
  intro n t scenario fleet c start h
  have split : h = h.dropLast ++ [h.getLast (by decide +kernel)] :=
    (List.dropLast_concat_getLast _).symm
  have connected : ∃ channel ∈ (h.getLast (by decide +kernel)).opened,
      channel.label = some daemonsLabel := by decide +kernel
  obtain ⟨before, stop, between, helpers, after, past, -, does, -, -, -, -, issued⟩ :=
    c.daemons_after_helpers _ _ _ split connected
  exact ⟨_, _, split, connected, helpers, by simp [past], does, issued⟩

end Controller
end Flotilla.Lifecycle
