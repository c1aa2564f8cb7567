import Flotilla.Lifecycle.Controller
import Flotilla.Proofs.Executor.Barrier
import Flotilla.Proofs.Session.Setting
import Flotilla.Proofs.Session.Waning

/-! The steps of a controller. Four of them move it to another phase: such a step is refused, and
leaves everything as it was, or it is busy with a fan-out over all of its tasks and then comes to
rest. If the fan-out fails, the controller stays busy. The other steps move nothing. -/
namespace Flotilla.Lifecycle
open Executor

inductive Transition
  | stop
  | reloadUnits
  | startHelpers
  | startDaemons
  deriving DecidableEq, Repr

inductive Step
  | transition (t : Transition)
  | supervise
  | close
  deriving DecidableEq, Repr

def Phase.isResting : Phase → Bool
  | idle => true
  | stopped => true
  | unitsReloaded => true
  | helpersStarted => true
  | running => true
  | _ => false

namespace Transition

def label : Transition → String
  | stop => stopLabel
  | reloadUnits => reloadLabel
  | startHelpers => helpersLabel
  | startDaemons => daemonsLabel

theorem label_injective : Function.Injective label := by
  intro t u h
  cases t <;> cases u <;> first | rfl | exact absurd h (by decide)

def busy : Transition → Phase
  | stop => .stopping
  | reloadUnits => .reloadingUnits
  | startHelpers => .startingHelpers
  | startDaemons => .startingDaemons

def rest : Transition → Phase
  | stop => .stopped
  | reloadUnits => .unitsReloaded
  | startHelpers => .helpersStarted
  | startDaemons => .running

def isBarrier : Transition → Bool
  | stop => true
  | reloadUnits => true
  | _ => false

theorem not_isResting_busy (t : Transition) : ¬ t.busy.isResting := by
  cases t <;> decide

theorem isResting_rest (t : Transition) : t.rest.isResting := by
  cases t <;> rfl

end Transition

namespace Controller

def reloadTasks (c : Controller) : List Task :=
  c.fleet.nodes.map fun n => ⟨n.name, n.address, .command Unit.reload⟩

def tasks (c : Controller) : Transition → List Task
  | .stop => c.stopTasks
  | .reloadUnits => c.reloadTasks
  | .startHelpers => c.helperTasks
  | .startDaemons => c.daemonTasks

def sources (c : Controller) : Transition → List Phase
  | .stop => [.idle, .stopped, .running]
  | .reloadUnits => [.stopped]
  | .startHelpers => if c.reloads then [.unitsReloaded] else [.stopped, .unitsReloaded]
  | .startDaemons => [.helpersStarted]

def Admits (c : Controller) (t : Transition) (p : Progress) : Prop :=
  p.phase ∈ c.sources t ∧ (t = .startDaemons → helpersIssued p)

def perform (c : Controller) : Step → Act PUnit
  | .transition .stop => do let _ ← c.stop
  | .transition .reloadUnits => do let _ ← c.reloadUnits
  | .transition .startHelpers => do let _ ← c.startHelpers
  | .transition .startDaemons => do let _ ← c.startDaemons
  | .supervise => do let _ ← supervise
  | .close => close

def channels (c : Controller) (t : Transition) : List Host.Channel :=
  (c.tasks t).map (Executor.channel (some t.label))

end Controller

theorem exec_run {α : Type} (x : Run α) (p : Progress) :
    exec (Act.run x) p = ((exec x p.session).1, { p with session := (exec x p.session).2 }) := by
  rw [Act.run, exec_bind, exec_get]
  unfold exec
  dsimp only
  rcases (ExceptT.run x).run p.session with ⟨_ | _, s⟩ <;> rfl

theorem exec_log (r : Log.Record) (p : Progress) :
    exec (Act.log r) p = (.ok ⟨⟩, { p with session := p.session.note .caller r }) := by
  rw [Act.log, exec_run]
  rfl

namespace Controller

theorem exec_enter {allowed : List Phase} (phase : Phase) {p : Progress} (h : p.phase ∈ allowed) :
    exec (enter allowed phase) p = (.ok ⟨⟩, { p with phase }) := by
  simp only [enter, exec_bind, exec_get, List.contains_iff_mem, if_pos h]
  rfl

theorem exec_enter_refused {allowed : List Phase} (phase : Phase) {p : Progress}
    (h : p.phase ∉ allowed) :
    exec (enter allowed phase) p = (.error (.disorder (.move phase.name p.phase.name)), p) := by
  simp only [enter, exec_bind, exec_get, List.contains_iff_mem, if_neg h]
  rfl

def closeAll (ids : List Nat) (s : Session) : Session :=
  ids.foldl (fun s id => (exec (Executor.close id) s).2) s

theorem exec_close (p : Progress) : exec close p =
    (.ok ⟨⟩, { p with session := closeAll (p.helpers.toList ++ p.daemons.toList) p.session }) := by
  have each (ids : List Nat) : ∀ p : Progress,
      exec (forIn ids PUnit.unit fun id _ => do
        Act.run (Executor.close id)
        pure (.yield PUnit.unit)) p = (.ok ⟨⟩, { p with session := closeAll ids p.session }) := by
    induction ids with
    | nil => exact fun p => rfl
    | cons id r ih =>
      intro p
      rw [List.forIn_cons, exec_bind, exec_bind, exec_run]
      exact ih _
  rw [close, exec_bind_ok (exec_get p), exec_bind_ok (each _ p)]
  rfl

theorem closeAll_opens (ids : List Nat) (s : Session) : s.Opens (closeAll ids s) [] := by
  refine List.foldlRecOn (motive := fun s' => s.Opens s' []) ids _ (.refl s) fun s' opens id _ => ?_
  obtain ⟨s'', closed, grows⟩ := Executor.exec_close id s'
  rw [closed]
  exact opens.trans ⟨[], grows⟩

theorem closeAll_steady (ids : List Nat) (s : Session) : s.Steady (closeAll ids s) :=
  List.foldlRecOn (motive := s.Steady) ids _ (.refl s)
    fun s' steady id _ => steady.trans (Executor.close_steady id s')

theorem isProper_of_mem_tasks {c : Controller} {t : Transition} {task : Task}
    (h : task ∈ c.tasks t) : task.isProper := by
  cases t <;>
    simp only [tasks, stopTasks, reloadTasks, helperTasks, daemonTasks, List.mem_flatMap,
      List.mem_map] at h
  · obtain ⟨n, -, unit, -, rfl⟩ := h
    rfl
  all_goals
    obtain ⟨i, -, rfl⟩ := h
    rfl

theorem channels_eq (c : Controller) (t : Transition) :
    Executor.channels (some t.label) (c.tasks t) = c.channels t :=
  channels_eq_map _ fun _ => isProper_of_mem_tasks

def line (c : Controller) : Transition → Log.Record
  | .stop => Log.info s!"Stopping {c.stopTasks.length} unit(s) on {c.fleet.nodes.length} node(s)"
  | .reloadUnits => Log.info s!"Reloading unit definitions on {c.fleet.nodes.length} node(s)"
  | .startHelpers => Log.info s!"Starting {c.helperTasks.length} helper(s)"
  | .startDaemons => Log.info s!"Starting {c.daemonTasks.length} daemon(s)"

def ready (c : Controller) (t : Transition) (p : Progress) : Progress :=
  let q := { p with phase := t.busy }
  let q := if t = .stop then (exec close q).2 else q
  { q with session := q.session.note .caller (c.line t) }

def enlist (t : Transition) (id : Nat) (p : Progress) : Progress :=
  match t with
  | .startHelpers => { p with helpers := some id }
  | .startDaemons => { p with daemons := some id }
  | _ => p

def fanOut (c : Controller) (t : Transition) : Act PUnit :=
  if t.isBarrier then do
    let results ← Act.run (c.executor.execute (some t.label) (c.tasks t))
    modify fun p => { p with report := p.report.record t.label results }
    moveTo t.rest
  else do
    let id ← Act.run (c.executor.dispatch (some t.label) (c.tasks t))
    let h ← Act.handle id
    modify fun p =>
      let p := enlist t id p
      { p with report := p.report.recordDispatch t.label h }
    moveTo t.rest

theorem exec_admitted (c : Controller) {t : Transition} {p : Progress} (h : c.Admits t p) :
    exec (c.perform (.transition t)) p = exec (c.fanOut t) (c.ready t p) := by
  obtain ⟨source, issued⟩ := h
  cases t with
  | stop =>
    simp only [perform, stop, bind_assoc, pure_bind]
    rw [exec_bind_ok (exec_enter _ (show p.phase ∈ [.idle, .stopped, .running] from source)),
      exec_bind_ok (exec_close _), exec_bind_ok (exec_log _ _), ready, if_pos rfl, exec_close]
    rfl
  | reloadUnits =>
    simp only [perform, reloadUnits, fleetTasks_command, Run.lift, bind_assoc, pure_bind]
    rw [exec_bind_ok (exec_enter _ (show p.phase ∈ [.stopped] from source)),
      exec_bind_ok (exec_log _ _)]
    rfl
  | startHelpers =>
    simp only [perform, startHelpers, bind_assoc, pure_bind]
    rw [exec_bind_ok (exec_enter _ (show p.phase ∈ ite _ _ _ from source)),
      exec_bind_ok (exec_log _ _)]
    rfl
  | startDaemons =>
    simp only [perform, startDaemons, bind_assoc]
    rw [exec_bind_ok (exec_get p)]
    simp only [issued rfl, Bool.not_true, Bool.false_eq_true, if_false, bind_assoc, pure_bind]
    rw [exec_bind_ok (exec_enter _ (show p.phase ∈ [.helpersStarted] from source)),
      exec_bind_ok (exec_log _ _)]
    rfl

/-- A barrier enters its results and comes to rest, unless it fails. -/
theorem exec_fanOut_barrier (c : Controller) {t : Transition} (barrier : t.isBarrier)
    (q : Progress) : exec (c.fanOut t) q =
      match exec (c.executor.execute (some t.label) (c.tasks t)) q.session with
      | (.ok rs, s) =>
        (.ok ⟨⟩, { q with session := s, report := q.report.record t.label rs, phase := t.rest })
      | (.error f, s) => (.error f, { q with session := s }) := by
  rw [fanOut, if_pos barrier, exec_bind, exec_run]
  rcases exec (c.executor.execute (some t.label) (c.tasks t)) q.session with ⟨_ | _, s⟩ <;> rfl

theorem session_fanOut_barrier (c : Controller) {t : Transition} (barrier : t.isBarrier)
    (q : Progress) : (exec (c.fanOut t) q).2.session =
      (exec (c.executor.execute (some t.label) (c.tasks t)) q.session).2 := by
  rw [exec_fanOut_barrier c barrier]
  split <;> next taken => rw [taken]

theorem exec_fanOut_issue (c : Controller) {t : Transition} (issues : ¬ t.isBarrier) {q : Progress}
    {id : Nat} {s : Session} {h : Handle Connection}
    (issued : exec (c.executor.dispatch (some t.label) (c.tasks t)) q.session = (.ok id, s))
    (found : s.handle? id = some h) :
    exec (c.fanOut t) q = (.ok ⟨⟩, { enlist t id q with
      session := s, report := q.report.recordDispatch t.label h, phase := t.rest }) := by
  have ran : exec (Act.run (c.executor.dispatch (some t.label) (c.tasks t))) q =
      (.ok id, { q with session := s }) := by
    rw [exec_run, issued]
  have held (p : Progress) (id : Nat) :
      exec (Act.handle id) p = (.ok ((p.session.handle? id).getD { tasks := [] }), p) := rfl
  rw [fanOut, if_neg issues, exec_bind_ok ran, exec_bind_ok (held _ _), found]
  cases t <;> rfl

theorem ready_eq (c : Controller) (t : Transition) (p : Progress) :
    ∃ s, c.ready t p = { p with phase := t.busy, session := s } ∧ p.session.Opens s [] ∧
      p.session.Steady s := by
  have noted (s : Session) : s.Opens (s.note .caller (c.line t)) [] := ⟨_, .note s .caller _⟩
  by_cases stops : t = .stop
  · refine ⟨(closeAll (p.helpers.toList ++ p.daemons.toList) p.session).note .caller (c.line t), ?_,
      (closeAll_opens _ _).trans (noted _),
      (closeAll_steady _ _).trans (Session.note_steady _ _ _)⟩
    simp only [ready, if_pos stops, exec_close]
  · refine ⟨p.session.note .caller (c.line t), ?_, noted _, Session.note_steady _ _ _⟩
    simp only [ready, if_neg stops]

structure Made (c : Controller) (t : Transition) (p p' : Progress) (x : Except Fault PUnit) :
    Prop where
  opens : p.session.Opens p'.session (c.channels t)
  phase : p'.phase = if x.isOk then t.rest else t.busy
  /-- A barrier is as good as its fan-out. -/
  waits : t.isBarrier → ∃ s, p.session.Opens s [] ∧
    x.isOk = (exec (c.executor.execute (some t.label) (c.tasks t)) s).1.isOk
  issues : ¬ t.isBarrier → x.isOk
  helpers : t ≠ .startHelpers → p'.helpers = p.helpers
  created : t = .startHelpers → ∃ id h, p.session.handle? id = none ∧ p'.helpers = some id ∧
    p'.session.handle? id = some h ∧ h.tasks = c.helperTasks ∧ h.allIssued

theorem Made.returned {c : Controller} {t : Transition} {p p' : Progress} {x : Except Fault PUnit}
    (made : c.Made t p p' x) (rests : p'.phase.isResting) : x = .ok ⟨⟩ ∧ p'.phase = t.rest := by
  cases x with
  | ok u => exact ⟨rfl, made.phase⟩
  | error f =>
    have busy : p'.phase = t.busy := made.phase
    exact absurd (busy ▸ rests) t.not_isResting_busy

theorem made_of_barrier (c : Controller) {t : Transition} (barrier : t.isBarrier) {p : Progress}
    {s : Session} (opens : p.session.Opens s []) :
    ∃ x p', exec (c.fanOut t) { p with phase := t.busy, session := s } = (x, p') ∧
      c.Made t p p' x := by
  have ran := opens.trans (execute_opens c.executor (some t.label) (c.tasks t) s)
  rw [List.nil_append, channels_eq] at ran
  have other : t ≠ .startHelpers := by
    rintro rfl
    cases barrier
  rw [exec_fanOut_barrier c barrier]
  rcases taken : exec (c.executor.execute (some t.label) (c.tasks t)) s with ⟨f | rs, s'⟩ <;>
    rw [taken] at ran
  · exact ⟨_, _, rfl, ran, rfl, fun _ => ⟨s, opens, by rw [taken]; rfl⟩, absurd barrier,
      fun _ => rfl, fun h => absurd h other⟩
  · exact ⟨_, _, rfl, ran, rfl, fun _ => ⟨s, opens, by rw [taken]; rfl⟩, absurd barrier,
      fun _ => rfl, fun h => absurd h other⟩

theorem made_of_issue (c : Controller) {t : Transition} (issues : ¬ t.isBarrier) {p : Progress}
    {s : Session} (opens : p.session.Opens s []) :
    ∃ x p', exec (c.fanOut t) { p with phase := t.busy, session := s } = (x, p') ∧
      c.Made t p p' x := by
  obtain ⟨s', h, issued, grows, found, tasks, all⟩ :=
    exec_dispatch c.executor (some t.label) (c.tasks t) s
  rw [channels_eq] at grows
  have new : p.session.handle? s.handles.length = none := by
    cases known : p.session.handle? s.handles.length with
    | none => rfl
    | some h' =>
      obtain ⟨said, kept⟩ := opens
      obtain ⟨_, found', -⟩ := kept.handles known
      rw [Session.handle?, List.getElem?_eq_none (Nat.le_refl _)] at found'
      cases found'
  refine ⟨_, _, exec_fanOut_issue c issues issued found, opens.trans ⟨[], grows⟩, rfl,
    fun barrier => absurd barrier issues, fun _ => rfl, ?_, ?_⟩
  · intro other
    cases t <;> first | rfl | exact absurd rfl other
  · rintro rfl
    exact ⟨_, h, new, rfl, found, tasks, all⟩

theorem exec_transition (c : Controller) {t : Transition} {p : Progress} (h : c.Admits t p) :
    ∃ x p', exec (c.perform (.transition t)) p = (x, p') ∧ c.Made t p p' x := by
  obtain ⟨s, ready, opens, -⟩ := c.ready_eq t p
  rw [c.exec_admitted h, ready]
  by_cases barrier : t.isBarrier
  · exact c.made_of_barrier barrier opens
  · exact c.made_of_issue barrier opens

theorem exec_refused (c : Controller) {t : Transition} {p : Progress} (h : ¬ c.Admits t p) :
    ∃ why, exec (c.perform (.transition t)) p = (.error (.disorder why), p) := by
  have barred (allowed : List Phase) (phase : Phase) {α : Type} (f : PUnit → Act α)
      (outside : p.phase ∉ allowed) :
      ∃ why, exec (enter allowed phase >>= f) p = (.error (.disorder why), p) :=
    ⟨_, exec_bind_error (exec_enter_refused phase outside) f⟩
  cases t with
  | stop =>
    simp only [perform, stop, bind_assoc]
    exact barred _ _ _ fun inside => h ⟨inside, nofun⟩
  | reloadUnits =>
    simp only [perform, reloadUnits, bind_assoc]
    exact barred _ _ _ fun inside => h ⟨inside, nofun⟩
  | startHelpers =>
    simp only [perform, startHelpers, bind_assoc]
    exact barred _ _ _ fun inside => h ⟨inside, nofun⟩
  | startDaemons =>
    simp only [perform, startDaemons, bind_assoc]
    rw [exec_bind_ok (exec_get p)]
    cases issued : helpersIssued p with
    | false => exact ⟨_, rfl⟩
    | true =>
      simp only [Bool.not_true, Bool.false_eq_true, if_false, bind_assoc]
      exact barred _ _ _ fun inside => h ⟨inside, fun _ => issued⟩

/-- A transition that is let in may lose its barrier, and fails for nothing else. -/
theorem fault_of_admits (c : Controller) {t : Transition} {p : Progress} (h : c.Admits t p) {f : Fault}
    (failed : (exec (c.perform (.transition t)) p).1 = .error f) : IsUnwritten f := by
  by_cases barrier : t.isBarrier
  · rw [c.exec_admitted h, exec_fanOut_barrier c barrier] at failed
    split at failed
    · cases failed
    · next f' s lost =>
      obtain rfl : f' = f := Except.error.inj failed
      exact fault_of_execute (congrArg Prod.fst lost)
  · obtain ⟨x, q, taken, made⟩ := c.exec_transition h
    have ok := made.issues barrier
    rw [taken] at failed
    obtain rfl : x = .error f := failed
    cases ok

theorem fanOut_steady (c : Controller) (t : Transition) (q : Progress) :
    q.session.Steady (exec (c.fanOut t) q).2.session := by
  by_cases barrier : t.isBarrier
  · rw [c.session_fanOut_barrier barrier]
    exact c.executor.execute_steady _ _ q.session
  · obtain ⟨s, h, issued, -, found, -⟩ :=
      exec_dispatch c.executor (some t.label) (c.tasks t) q.session
    have steady := c.executor.dispatch_steady (some t.label) (c.tasks t) q.session
    rw [c.exec_fanOut_issue barrier issued found]
    rwa [issued] at steady

theorem perform_steady (c : Controller) (t : Transition) (p : Progress) :
    p.session.Steady (exec (c.perform (.transition t)) p).2.session := by
  by_cases admitted : c.Admits t p
  · obtain ⟨s, ready, -, steady⟩ := c.ready_eq t p
    rw [c.exec_admitted admitted, ready]
    exact steady.trans (c.fanOut_steady t { p with phase := t.busy, session := s })
  · obtain ⟨why, refused⟩ := c.exec_refused admitted
    rw [refused]
    exact .refl _

theorem exec_updateFrom (stage : String) (id : Option Nat) (p : Progress) :
    ∃ s r, exec (updateFrom stage id) p = (.ok ⟨⟩, { p with session := s, report := r }) ∧
      p.session.Opens s [] ∧ p.session.Steady s ∧ p.session.Wanes s ∧
      (id = none → r = p.report) ∧ (r = p.report ∨ ∃ rs, r = p.report.updateFrom stage rs) := by
  cases id with
  | none => exact ⟨p.session, p.report, rfl, .refl _, .refl _, .refl _, fun _ => rfl, .inl rfl⟩
  | some id =>
    have steady := Executor.join_steady id p.session
    have wanes := Executor.join_wanes id p.session
    obtain ⟨rs, s, joined, grows⟩ := Executor.exec_join id p.session
    rw [joined] at steady wanes
    refine ⟨s, p.report.updateFrom stage rs, ?_, ⟨[], grows⟩, steady, wanes, nofun, .inr ⟨rs, rfl⟩⟩
    rw [updateFrom, exec_bind, exec_run, joined]
    rfl

/-- The other steps never fail, open nothing, and keep phase and helpers. -/
theorem exec_watch (c : Controller) {k : Step} (h : ∀ t, k ≠ .transition t) (p : Progress) :
    ∃ p', exec (c.perform k) p = (.ok ⟨⟩, p') ∧ p.session.Opens p'.session [] ∧
      p'.phase = p.phase ∧ p'.helpers = p.helpers := by
  cases k with
  | transition t => exact absurd rfl (h t)
  | supervise =>
    obtain ⟨s, r, first, opens, -⟩ := exec_updateFrom daemonsLabel p.daemons p
    obtain ⟨s', r', second, opens', -⟩ :=
      exec_updateFrom helpersLabel p.helpers { p with session := s, report := r }
    refine ⟨{ p with session := s', report := r' }, ?_, opens.trans opens', rfl, rfl⟩
    simp only [perform, supervise, bind_assoc, pure_bind]
    rw [exec_bind_ok (exec_get p), exec_bind_ok first, exec_bind_ok second]
    rfl
  | close =>
    exact ⟨_, exec_close p, closeAll_opens _ _, rfl, rfl⟩

end Controller
end Flotilla.Lifecycle
