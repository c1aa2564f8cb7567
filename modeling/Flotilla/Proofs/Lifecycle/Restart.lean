import Flotilla.Proofs.Executor.Issue
import Flotilla.Proofs.Lifecycle.Rest
import Flotilla.Proofs.Report.Layout
import Flotilla.Proofs.Session.Passage

/-! Runs one after the other. Every run of a controller ends with its daemons running, and with the
report that a controller in its place would have begun with: its entries are all written anew, in the
order of the first run, whatever has been started, has ended or was given up in between. -/
namespace Flotilla.Lifecycle
open Executor Session

/-- Nothing ends while the controller is busy, and the hosts hand over the texts of their complaints. -/
structure Progress.Calm (p : Progress) : Prop where
  undisturbed : p.session.Undisturbed
  speaks : p.session.hosts.Speaks

theorem Progress.Calm.keep {p q : Progress} (calm : p.Calm) (steady : p.session.Steady q.session) :
    q.Calm := ⟨calm.undisturbed.keep steady, steady.hosts ▸ calm.speaks⟩

namespace Controller

/-- What a transition enters into the report, if nothing ends while it is made. -/
def sheet (c : Controller) (hosts : Host.Script) (t : Transition) : Report.Sheet :=
  if t.isBarrier then .ofResults t.label (c.executor.results hosts (some t.label) (c.tasks t))
  else .ofTasks t.label
    ((c.executor.refusals hosts (some t.label) (c.tasks t)).filter fun _ r => !r.isOk) (c.tasks t)

def transitions (c : Controller) : List Transition :=
  [.stop] ++ (if c.reloads then [.reloadUnits] else []) ++ [.startHelpers, .startDaemons]

def reportOn (c : Controller) (hosts : Host.Script) : Report :=
  Report.empty.enterAll (c.transitions.map (c.sheet hosts))

structure Enters (c : Controller) (t : Transition) (p q : Progress) : Prop where
  report : q.report = p.report.enter (c.sheet p.session.hosts t)
  steady : p.session.Steady q.session

theorem enters_barrier {c : Controller} {t : Transition} (barrier : t.isBarrier)
    (distinct : ((c.tasks t).map (·.key)).Nodup) {p q : Progress} (calm : p.Calm)
    (ready : p.session.Steady q.session) (report : q.report = p.report) :
    ∃ q', exec (c.fanOut t) q = (.ok ⟨⟩, q') ∧ c.Enters t p q' := by
  obtain ⟨s, ran, steady, -⟩ := c.executor.exec_execute_of_speaks (some t.label) distinct
    (fun _ => isProper_of_mem_tasks) (calm.keep ready).speaks
  rw [c.exec_fanOut_barrier barrier, ran]
  refine ⟨_, rfl, ?_, ready.trans steady⟩
  rw [sheet, if_pos barrier, report, ready.hosts, Report.record_eq_enter]

theorem enters_issue {c : Controller} {t : Transition} (issues : ¬ t.isBarrier) {p q : Progress}
    (calm : p.Calm) (ready : p.session.Steady q.session) (report : q.report = p.report) :
    ∃ q', exec (c.fanOut t) q = (.ok ⟨⟩, q') ∧ c.Enters t p q' := by
  obtain ⟨s, h, issued, steady, found, tasks, results⟩ :=
    c.executor.exec_dispatch_of_undisturbed (some t.label) (c.tasks t) (calm.keep ready).undisturbed
  refine ⟨_, c.exec_fanOut_issue issues issued found, ?_, ready.trans steady⟩
  rw [Report.recordDispatch_eq_enter, Handle.failed, results, tasks, sheet, if_neg issues, report,
    ready.hosts]

section
variable {c : Controller} {nodes : List Node} {r : Fleet.Request}
  (resolved : Fleet.resolve nodes r = .ok c.fleet)
include resolved

theorem exec_calm {t : Transition} {p : Progress} (admitted : c.Admits t p) (calm : p.Calm) :
    ∃ q, exec (c.perform (.transition t)) p = (.ok ⟨⟩, q) ∧ c.Enters t p q := by
  obtain ⟨s, ready, -, steady⟩ := c.ready_eq t p
  rw [c.exec_admitted admitted, ready]
  by_cases barrier : t.isBarrier
  · exact enters_barrier barrier (nodup_task_keys resolved t) calm steady rfl
  · exact enters_issue barrier calm steady rfl

theorem exec_leads {ts : List Transition} {p : Progress} (leads : c.Leads p.phase ts)
    (issued : p.phase = .helpersStarted → helpersIssued p) (calm : p.Calm) :
    ∃ q, exec (c.performAll (ts.map Step.transition)) p = (.ok ⟨⟩, q) ∧ q.phase = .running ∧
      q.report = p.report.enterAll (ts.map (c.sheet p.session.hosts)) ∧
      p.session.Steady q.session := by
  induction ts generalizing p with
  | nil => exact ⟨p, rfl, leads, rfl, .refl _⟩
  | cons t r ih =>
    have admitted := leads.admits issued
    obtain ⟨q, taken, report, steady⟩ := exec_calm resolved admitted calm
    obtain ⟨x, q', taken', made⟩ := c.exec_transition admitted
    obtain ⟨rfl, rfl⟩ := Prod.mk.inj (taken.symm.trans taken')
    have phase : q.phase = t.rest := made.phase
    obtain ⟨q', rest, running, reported, steady'⟩ := ih (phase ▸ leads.2)
      (fun helped => helpersIssued_of_made made (phase ▸ helped)) (calm.keep steady)
    refine ⟨q', ?_, running, ?_, steady.trans steady'⟩
    · rw [List.map_cons, performAll, exec_bind_ok taken]
      exact rest
    · rw [reported, report, steady.hosts]
      rfl

end

theorem leads_transitions (c : Controller) {phase : Phase} (h : phase ∈ c.sources .stop) :
    c.Leads phase c.transitions := by
  unfold transitions
  cases reloads : c.reloads <;> refine ⟨h, ?_⟩ <;>
    simp [Leads, sources, Transition.rest, reloads]

theorem run_eq (c : Controller) : c.run = (do
    c.performAll (c.transitions.map Step.transition)
    return (← get).report) := by
  unfold transitions
  cases reloads : c.reloads <;>
    simp only [run, performAll, perform, reloads, bind_assoc, pure_bind, Bool.false_eq_true, if_true,
      if_false, List.map_cons, List.map_nil, List.cons_append, List.nil_append, List.append_nil]

theorem stages_transitions (c : Controller) (hosts : Host.Script) :
    (c.transitions.map (c.sheet hosts)).map (·.stage) = c.transitions.map Transition.label := by
  rw [List.map_map]
  refine List.map_congr_left fun t _ => ?_
  rw [Function.comp_apply, sheet]
  split <;> rfl

theorem nodup_stages (c : Controller) (hosts : Host.Script) :
    ((c.transitions.map (c.sheet hosts)).map (·.stage)).Nodup := by
  have transitions : c.transitions.Nodup := by
    unfold Controller.transitions
    cases c.reloads <;> decide
  rw [stages_transitions]
  exact transitions.map Transition.label_injective

theorem layout_sheet (c : Controller) (hosts hosts' : Host.Script) (t : Transition) :
    (c.sheet hosts t).layout = (c.sheet hosts' t).layout := by
  unfold sheet Report.Sheet.layout
  split
  · have keys : (c.executor.results hosts (some t.label) (c.tasks t)).keys =
        (c.executor.results hosts' (some t.label) (c.tasks t)).keys :=
      Table.keys_foldl_put_congr _ _ _ _ rfl
    rw [Report.keys_ofResults, Report.keys_ofResults, keys]
    rfl
  · simp [Report.Sheet.ofTasks, Function.comp_def]

/-- Entered into the report of an earlier run, the sheets of a run make the report of a first one. -/
theorem enterAll_eq_reportOn (c : Controller) {report : Report} {hosts : Host.Script}
    (alike : report.Alike (c.reportOn hosts)) (hosts' : Host.Script) :
    report.enterAll (c.transitions.map (c.sheet hosts')) = c.reportOn hosts' := by
  refine Report.enterAll_of_alike ?_ (c.nodup_stages hosts') alike
  rw [List.map_map, List.map_map]
  exact List.map_congr_left fun t _ => c.layout_sheet hosts' hosts t

theorem label_mem_reportOn (c : Controller) (hosts : Host.Script) {t : Transition}
    (h : t ∈ c.transitions) : t.label ∈ (c.reportOn hosts).stages.keys := by
  rw [reportOn, Report.keys_enterAll_empty (c.nodup_stages hosts), stages_transitions]
  exact List.mem_map_of_mem h

/-- What comes next: a run, or what may happen between runs. Commands may end then at any time, also
while the controller looks after them or gives them up. -/
inductive Turn
  | run
  | supervise (meanwhile : List (Running → Bool))
  | close (meanwhile : List (Running → Bool))
  | ended (which : Running → Bool)
  | hostsBecame (hosts : Host.Script)

def during (p : Progress) (meanwhile : List (Running → Bool)) : Progress :=
  { p with session := { p.session with meanwhile } }

def turn (c : Controller) (p : Progress) : Turn → Progress
  | .run => (exec c.run p).2
  | .supervise meanwhile => during (exec supervise (during p meanwhile)).2 []
  | .close meanwhile => during (exec close (during p meanwhile)).2 []
  | .ended which => { p with session := finishAll p.session which }
  | .hostsBecame hosts => { p with session := { p.session with hosts } }

/-- A controller that nothing has been asked of yet, or one whose daemons run and whose report lists
what that of a run does. -/
structure Ready (c : Controller) (p : Progress) : Prop where
  calm : p.Calm
  rests : p.phase = .idle ∧ p.report = .empty ∧ p.helpers = none ∧ p.daemons = none ∨
    p.phase = .running ∧ ∃ hosts, p.report.Alike (c.reportOn hosts)

theorem ready_new (c : Controller) {s : Session} (undisturbed : s.Undisturbed)
    (speaks : s.hosts.Speaks) : c.Ready (.new s .empty) :=
  ⟨⟨undisturbed, speaks⟩, .inl ⟨rfl, rfl, rfl, rfl⟩⟩

theorem exec_supervise (c : Controller) (p : Progress) :
    ∃ s r, exec supervise p = (.ok r, { p with session := s, report := r }) ∧
      p.session.Steady s ∧ p.session.Wanes s ∧
      (p.helpers = none → p.daemons = none → r = p.report) ∧
      ∀ hosts, p.report.Alike (c.reportOn hosts) → r.Alike (c.reportOn hosts) := by
  obtain ⟨s, r, first, -, steady, wanes, unasked, looked⟩ :=
    exec_updateFrom daemonsLabel p.daemons p
  obtain ⟨s', r', second, -, steady', wanes', unasked', looked'⟩ :=
    exec_updateFrom helpersLabel p.helpers { p with session := s, report := r }
  have keeps {t : Transition} (ht : t ∈ c.transitions) {hosts : Host.Script} {report report' : Report}
      (looked : report' = report ∨ ∃ rs, report' = report.updateFrom t.label rs)
      (alike : report.Alike (c.reportOn hosts)) : report'.Alike (c.reportOn hosts) := by
    have listed : t.label ∈ report.stages.keys := alike.stages ▸ c.label_mem_reportOn hosts ht
    rcases looked with rfl | ⟨rs, rfl⟩
    · exact alike
    · exact (Report.alike_updateFrom listed rs).trans alike
  refine ⟨s', r', ?_, steady.trans steady', wanes.trans wanes', fun helpers daemons => ?_,
    fun hosts alike => ?_⟩
  · rw [supervise, exec_bind_ok (exec_get p), exec_bind_ok first, exec_bind_ok second]
    rfl
  · rw [unasked' helpers, unasked daemons]
  · have helpers : Transition.startHelpers ∈ c.transitions := by simp [transitions]
    have daemons : Transition.startDaemons ∈ c.transitions := by simp [transitions]
    exact keeps helpers looked' (keeps daemons looked alike)

theorem ready_run {c : Controller} {nodes : List Node} {r : Fleet.Request}
    (resolved : Fleet.resolve nodes r = .ok c.fleet) {p : Progress} (ready : c.Ready p) :
    ∃ q, exec c.run p = (.ok (c.reportOn p.session.hosts), q) ∧ q.phase = .running ∧
      q.report = c.reportOn p.session.hosts ∧ c.Ready q := by
  have source : p.phase ∈ c.sources .stop ∧ p.phase ≠ .helpersStarted := by
    rcases ready.rests with ⟨phase, -⟩ | ⟨phase, -⟩ <;> simp [phase, sources]
  obtain ⟨q, ran, running, report, steady⟩ := exec_leads resolved (c.leads_transitions source.1)
    (fun helped => absurd helped source.2) ready.calm
  have whole : q.report = c.reportOn p.session.hosts := by
    rw [report]
    rcases ready.rests with ⟨-, blank, -⟩ | ⟨-, hosts, alike⟩
    · rw [blank]
      rfl
    · exact c.enterAll_eq_reportOn alike p.session.hosts
  have listed : q.report.Alike (c.reportOn p.session.hosts) := by
    rw [whole]
    exact .refl _
  refine ⟨q, ?_, running, whole, ready.calm.keep steady, .inr ⟨running, _, listed⟩⟩
  rw [run_eq, exec_bind_ok ran, ← whole]
  rfl

theorem ready_turn {c : Controller} {nodes : List Node} {r : Fleet.Request}
    (resolved : Fleet.resolve nodes r = .ok c.fleet) {p : Progress} (ready : c.Ready p) (t : Turn)
    (speaks : ∀ hosts, t = .hostsBecame hosts → hosts.Speaks) : c.Ready (c.turn p t) := by
  obtain ⟨⟨⟨holds, idle⟩, said⟩, rests⟩ := ready
  cases t with
  | run =>
    obtain ⟨q, ran, -, -, again⟩ := ready_run resolved ⟨⟨⟨holds, idle⟩, said⟩, rests⟩
    rw [turn, ran]
    exact again
  | supervise meanwhile =>
    obtain ⟨s, report, looked, steady, -, same, alike⟩ := c.exec_supervise (during p meanwhile)
    rw [turn, looked]
    refine ⟨⟨⟨steady.holds.trans holds, rfl⟩, steady.hosts ▸ said⟩, rests.imp ?_ ?_⟩
    · exact fun ⟨phase, blank, helpers, daemons⟩ =>
        ⟨phase, (same helpers daemons).trans blank, helpers, daemons⟩
    · exact fun ⟨phase, hosts, listed⟩ => ⟨phase, hosts, alike hosts listed⟩
  | close meanwhile =>
    have steady := closeAll_steady (p.helpers.toList ++ p.daemons.toList) (during p meanwhile).session
    rw [turn, exec_close]
    exact ⟨⟨⟨steady.holds.trans holds, rfl⟩, steady.hosts ▸ said⟩, rests⟩
  | ended which =>
    have steady := finishAll_steady p.session which
    exact ⟨⟨⟨steady.holds.trans holds, steady.meanwhile idle⟩, steady.hosts ▸ said⟩, rests⟩
  | hostsBecame hosts => exact ⟨⟨⟨holds, idle⟩, speaks hosts rfl⟩, rests⟩

theorem ready_turns {c : Controller} {nodes : List Node} {r : Fleet.Request}
    (resolved : Fleet.resolve nodes r = .ok c.fleet) (turns : List Turn)
    (speak : ∀ hosts, .hostsBecame hosts ∈ turns → hosts.Speaks) {p : Progress}
    (ready : c.Ready p) : c.Ready (turns.foldl c.turn p) :=
  List.foldlRecOn turns c.turn ready fun _ ready t ht =>
    ready_turn resolved ready t fun hosts same => speak hosts (same ▸ ht)

end Controller
end Flotilla.Lifecycle
