import Flotilla.Proofs.Fleet.Keys
import Flotilla.Proofs.Lifecycle.Order

/-! Coming to rest. Between calls a controller is in a phase from which it can go on, unless one of
its barriers failed mutely: then it is busy for good, and every later call of it is in vain. -/
namespace Flotilla.Lifecycle
open Executor

namespace Controller

/-- The entry is a barrier that was let in, and one of whose tasks fails mutely. -/
def Wedges (c : Controller) (e : Entry) : Prop :=
  ∃ t, e.step = .transition t ∧ t.isBarrier ∧ c.Admits t e.before ∧
    ∃ task ∈ c.tasks t, c.executor.FailsMutely e.before.session.hosts (some t.label) task

def Spares (c : Controller) (hosts : Host.Script) : Prop :=
  ∀ t, t.isBarrier → ∀ task ∈ c.tasks t, ¬ c.executor.FailsMutely hosts (some t.label) task

theorem isResting_of_admits {c : Controller} {t : Transition} {p : Progress} (h : c.Admits t p) :
    p.phase.isResting := by
  obtain ⟨h, -⟩ := h
  cases t <;> simp only [sources] at h
  case startHelpers => exact Phase.isResting_of_isUnderWay (isUnderWay_of_mem_sources h)
  all_goals
    cases phase : p.phase <;> first | rfl | simp [phase] at h

theorem phase_of_busy (c : Controller) {p : Progress} (busy : ¬ p.phase.isResting)
    (moves : List Move) : (c.after moves p).phase = p.phase := by
  refine c.history_induction (I := fun _ q => q.phase = p.phase) ?_ (fun _ => id) moves rfl
  intro past q k same
  rcases c.entry_cases k q with ⟨-, -, phase, -⟩ | ⟨t, -, admitted, -⟩
  · exact phase.trans same
  · exact absurd (same ▸ isResting_of_admits admitted) busy

/-- Transitions that may follow each other from a phase on, and end with the daemons running. -/
def Leads (c : Controller) : Phase → List Transition → Prop
  | phase, [] => phase = .running
  | phase, t :: r => phase ∈ c.sources t ∧ c.Leads t.rest r

theorem exists_leads (c : Controller) {phase : Phase} (h : phase.isResting) :
    ∃ ts, c.Leads phase ts := by
  have reloaded : c.Leads .unitsReloaded [.startHelpers, .startDaemons] := by
    cases reloads : c.reloads <;> simp [Leads, sources, Transition.rest, reloads]
  have stopped : c.Leads .stopped [.reloadUnits, .startHelpers, .startDaemons] :=
    ⟨by simp [sources], reloaded⟩
  cases phase with
  | idle => exact ⟨.stop :: _, by simp [sources], stopped⟩
  | stopped => exact ⟨_, stopped⟩
  | running => exact ⟨.stop :: _, by simp [sources], stopped⟩
  | unitsReloaded => exact ⟨_, reloaded⟩
  | helpersStarted => exact ⟨[.startDaemons], by simp [sources], rfl⟩
  | _ => cases h

theorem Leads.admits {c : Controller} {t : Transition} {ts : List Transition} {p : Progress}
    (leads : c.Leads p.phase (t :: ts)) (issued : p.phase = .helpersStarted → helpersIssued p) :
    c.Admits t p := by
  refine ⟨leads.1, ?_⟩
  rintro rfl
  exact issued (List.mem_singleton.mp leads.1)

def calls (ts : List Transition) : List Move := ts.map fun t => .call (.step (.transition t))

theorem entries_singleton (c : Controller) (k : Step) (p : Progress) :
    c.entries [k] p = [c.entry k p] := by
  unfold entries
  dsimp only
  split <;> rfl

theorem helpersIssued_of_made {c : Controller} {t : Transition} {p p' : Progress}
    {x : Except Fault PUnit} (made : c.Made t p p' x) (phase : t.rest = .helpersStarted) :
    helpersIssued p' := by
  cases t <;> cases phase
  obtain ⟨id, h, -, known, found, -, all⟩ := made.created rfl
  simpa [helpersIssued, known, found] using all

section
variable {c : Controller} {nodes : List Node} {r : Fleet.Request}
  (resolved : Fleet.resolve nodes r = .ok c.fleet)
include resolved

theorem nodup_task_keys (t : Transition) : ((c.tasks t).map (·.key)).Nodup := by
  cases t with
  | stop =>
    have units : Fleet.unitNames.Nodup := by decide
    have keys := Fleet.nodup_keys (Fleet.hasOrdinals_of_resolve resolved) units
    simpa [tasks, stopTasks, List.map_flatMap, Function.comp_def] using keys
  | reloadUnits =>
    have names := Fleet.nodup_names (Fleet.hasOrdinals_of_resolve resolved)
    simpa [tasks, reloadTasks, Function.comp_def] using names
  | startHelpers =>
    simpa [tasks, helperTasks, Function.comp_def] using Fleet.nodup_instance_keys resolved
  | startDaemons =>
    simpa [tasks, daemonTasks, Function.comp_def] using Fleet.nodup_instance_keys resolved

theorem isOk_iff_of_made {t : Transition} {p p' : Progress} {x : Except Fault PUnit}
    (made : c.Made t p p' x) :
    x.isOk ↔ (t.isBarrier → ∀ task ∈ c.tasks t,
      ¬ c.executor.FailsMutely p.session.hosts (some t.label) task) := by
  cases barrier : t.isBarrier with
  | false => simp [made.issues (by simp [barrier])]
  | true =>
    obtain ⟨s, ⟨said, grows⟩, same⟩ := made.waits barrier
    have distinct := nodup_task_keys resolved t
    obtain ⟨rs, s', ran, -⟩ := c.executor.exec_execute (some t.label) distinct
      (fun _ => isProper_of_mem_tasks) s
    rw [same, ran]
    simp only [← isMute_result_iff, grows.hosts]
    split <;> simp_all [Except.isOk, Except.toBool]

/-- A controller is at rest exactly if none of the steps so far has wedged it. -/
theorem isResting_iff (s : Session) (report : Report) (moves : List Move) :
    (c.after moves (.new s report)).phase.isResting ↔
      ∀ e ∈ c.history moves (.new s report), ¬ c.Wedges e := by
  refine c.history_induction (I := fun past p => p.phase.isResting ↔ ∀ e ∈ past, ¬ c.Wedges e)
    ?_ (fun _ => id) moves (p := .new s report) (by simp [Progress.new, Phase.isResting])
  intro past p k h
  rw [List.forall_mem_append, ← h, List.forall_mem_singleton]
  rcases c.entry_cases k p with ⟨-, refused, phase, -⟩ | ⟨t, rfl, admitted, made, -⟩
  · rw [phase]
    refine ⟨fun rests => ⟨rests, ?_⟩, And.left⟩
    rintro ⟨t, step, -, admitted, -⟩
    exact refused t step admitted
  · have ok := isOk_iff_of_made resolved made
    have rests : (c.entry (.transition t) p).after.phase.isResting ↔
        (c.entry (.transition t) p).outcome.isOk := by
      rw [made.phase]
      split <;> simp_all [t.isResting_rest, t.not_isResting_busy]
    rw [rests, ok, and_iff_right (isResting_of_admits admitted)]
    constructor
    · rintro fine ⟨_, ⟨⟩, barrier, -, task, ht, mute⟩
      exact fine barrier task ht mute
    · exact fun fine barrier task ht mute => fine ⟨t, rfl, barrier, admitted, task, ht, mute⟩

theorem running_of_leads {ts : List Transition} {p : Progress} (leads : c.Leads p.phase ts)
    (spared : c.Spares p.session.hosts) (issued : p.phase = .helpersStarted → helpersIssued p) :
    (c.after (calls ts) p).phase = .running ∧
      ∀ e ∈ c.history (calls ts) p, e.outcome = .ok ⟨⟩ := by
  induction ts generalizing p with
  | nil => exact ⟨leads, List.forall_mem_nil _⟩
  | cons t r ih =>
    have admitted := leads.admits issued
    rcases c.entry_cases (.transition t) p with ⟨-, refused, -⟩ | ⟨_, ⟨⟩, -, made, -⟩
    · exact absurd admitted (refused t rfl)
    · have ok := (isOk_iff_of_made resolved made).mpr (spared t)
      have phase := made.phase
      rw [if_pos ok] at phase
      obtain ⟨said, grows⟩ := made.opens
      obtain ⟨running, returned⟩ := ih (p := (c.entry (.transition t) p).after)
        (phase ▸ leads.2) (grows.hosts ▸ spared)
        fun helped => helpersIssued_of_made made (phase ▸ helped)
      refine ⟨running, ?_⟩
      change ∀ e ∈ c.entries [.transition t] p ++ c.history (calls r) _, e.outcome = .ok ⟨⟩
      rw [entries_singleton]
      refine List.forall_mem_append.mpr ⟨?_, returned⟩
      rw [List.forall_mem_singleton]
      cases outcome : (c.entry (.transition t) p).outcome with
      | ok u => rfl
      | error f => simp [outcome, Except.isOk, Except.toBool] at ok

end

end Controller
end Flotilla.Lifecycle
