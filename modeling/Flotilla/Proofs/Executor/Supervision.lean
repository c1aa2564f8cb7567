import Flotilla.Proofs.Executor.Issue
import Flotilla.Proofs.Executor.Moves
import Flotilla.Proofs.Executor.WriteOnce

/-! Supervision. A task that is not waited for has a promise with its handle: the result is there, or
it is that of the one command which runs for the task and comes when that ends. Nothing but giving up
the handle can break the promise, so in the end the handle shows what a barrier would have returned. -/
namespace Flotilla

def Running.result (r : Running) : Executor.Result :=
  .ofOutcome r.task (Host.Exchange.awaited r.connection.behaviour)

theorem Running.key_result (r : Running) : r.result.key = r.task.key := by
  unfold result Executor.Result.ofOutcome
  split <;> rfl

def Session.Runs (s : Session) (id : Nat) (key : String) : Prop :=
  ∃ r ∈ s.running, r.handle = id ∧ r.task.key = key

instance (s : Session) (id : Nat) (key : String) : Decidable (s.Runs id key) :=
  inferInstanceAs (Decidable (∃ r ∈ s.running, _))

namespace Executor
open Session

/-- From one state to a later one, nothing has happened to a handle's entry for a key but that some of
its commands have ended, of which the first has entered its result. -/
def Elapses (id : Nat) (key : String) (s s' : Session) : Prop :=
  ∃ ended : List Running, (∀ r ∈ ended, r ∈ s.running ∧ r.handle = id ∧ r.task.key = key) ∧
    (∀ h, s.handle? id = some h → ∃ h', s'.handle? id = some h' ∧
      h'.results.get? key = (h.results.get? key).or (ended.head?.map Running.result)) ∧
    ∀ r, r.handle = id → r.task.key = key → (r ∈ s'.running ↔ r ∈ s.running ∧ r ∉ ended)

namespace Elapses
variable {id : Nat} {key : String} {s s' s'' : Session}

theorem of_same
    (handles : ∀ h, s.handle? id = some h →
      ∃ h', s'.handle? id = some h' ∧ h'.results.get? key = h.results.get? key)
    (running : ∀ r, r.handle = id → r.task.key = key → (r ∈ s'.running ↔ r ∈ s.running)) :
    Elapses id key s s' := by
  refine ⟨[], by simp, fun h found => ?_, fun r mine task => ?_⟩
  · obtain ⟨h', found', same⟩ := handles h found
    exact ⟨h', found', by simpa using same⟩
  · simpa using running r mine task

theorem of_eq (handles : s'.handles = s.handles) (running : s'.running = s.running) :
    Elapses id key s s' := by
  refine of_same (fun h found => ⟨h, ?_, rfl⟩) fun r _ _ => by rw [running]
  rwa [handle?, handles]

theorem refl (s : Session) : Elapses id key s s := of_eq rfl rfl

theorem trans (a : Elapses id key s s') (b : Elapses id key s' s'') : Elapses id key s s'' := by
  obtain ⟨ended, own, entered, left⟩ := a
  obtain ⟨ended', own', entered', left'⟩ := b
  refine ⟨ended ++ ended', ?_, fun h found => ?_, fun r mine task => ?_⟩
  · refine List.forall_mem_append.mpr ⟨own, fun r hr => ?_⟩
    obtain ⟨runs, mine, task⟩ := own' r hr
    exact ⟨((left r mine task).mp runs).1, mine, task⟩
  · obtain ⟨h', found', shown⟩ := entered h found
    obtain ⟨h'', found'', shown'⟩ := entered' h' found'
    refine ⟨h'', found'', ?_⟩
    rw [shown', shown, List.head?_append, Option.or_assoc, Option.map_or]
  · rw [left' r mine task, left r mine task, List.mem_append, not_or, and_assoc]

theorem finish (w : Elapses id key s s') {r : Running} (hr : r ∈ s.running) :
    Elapses id key s (finish s' r) := by
  obtain ⟨ended, own, entered, left⟩ := w
  have remaining (q : Running) : q ∈ (Executor.finish s' r).running ↔ q ∈ s'.running ∧ q ≠ r := by
    change q ∈ s'.running.filter (· != r) ↔ _
    simp
  by_cases mine : r.handle = id ∧ r.task.key = key
  · obtain ⟨rfl, rfl⟩ := mine
    refine ⟨ended ++ [r], ?_, fun h found => ?_, fun q own task => ?_⟩
    · exact List.forall_mem_append.mpr ⟨own, by simpa using hr⟩
    · obtain ⟨h', found', shown⟩ := entered h found
      refine ⟨h'.complete r.result, ?_, ?_⟩
      · exact handle?_updateHandle_self _ found'
      · rw [Handle.complete, Table.get?_putNew, r.key_result, if_pos rfl, shown]
        cases h.results.get? r.task.key <;> cases ended <;> rfl
    · rw [remaining, left q own task]
      simp [and_assoc]
  · refine ⟨ended, own, fun h found => ?_, fun q own task => ?_⟩
    · obtain ⟨h', found', shown⟩ := entered h found
      change ∃ h', (s'.updateHandle r.handle _).handle? id = some h' ∧ _
      rw [handle?_updateHandle, found']
      split
      · next same =>
        refine ⟨_, rfl, ?_⟩
        have other : key ≠ r.result.key := fun task => mine ⟨same, r.key_result ▸ task.symm⟩
        rw [← shown]
        exact (Table.get?_putNew _ _ _ _).trans (if_neg other)
      · exact ⟨h', rfl, shown⟩
    · rw [remaining, left q own task]
      refine and_iff_left ?_
      rintro rfl
      exact mine ⟨own, task⟩

end Elapses

section
variable {id : Nat} {key : String}

theorem finishAll_elapses (s : Session) (which : Running → Bool) :
    Elapses id key s (finishAll s which) :=
  List.foldlRecOn (motive := Elapses id key s) _ finish (.refl s)
    fun _ w _ hr => w.finish (List.mem_filter.mp hr).1

theorem pause_elapses (s : Session) : Elapses id key s (pause s) := by
  unfold pause
  split
  · exact .refl s
  · next which later _ =>
    exact (Elapses.of_eq rfl rfl).trans (finishAll_elapses { s with meanwhile := later } which)

theorem take_elapses (s : Session) (x : Option Errand) : Elapses id key s (take s x) := by
  cases x <;> exact .of_eq rfl rfl

theorem runTasks_elapses (e : Executor) (label : Option String) (tasks : List Task) (rs : Results)
    (s : Session) : Elapses id key s (e.runTasks label tasks rs s).2 := by
  induction tasks generalizing rs s with
  | nil => exact pause_elapses s
  | cons t r ih =>
    obtain ⟨log, ran⟩ := runTask_take e label t (pause s)
    have used : Elapses id key (pause s) (e.runTask label t (pause s)).2 := by
      rw [ran]
      exact (take_elapses _ _).trans (.of_eq rfl rfl)
    exact ((pause_elapses s).trans used).trans (ih _ _)

theorem execute_elapses (e : Executor) (label : Option String) (tasks : List Task) (s : Session) :
    Elapses id key s (exec (e.execute label tasks) s).2 := by
  obtain ⟨rs, same⟩ := e.execute_told label tasks s
  rw [same]
  exact (runTasks_elapses e label tasks .empty s).trans (.of_eq rfl rfl)

theorem single_elapses (host : String) (given : Command.Given) (user : Option Value) (identity : Value)
    (timeout : Option Value) (s : Session) :
    Elapses id key s (exec (Single.execute host given user identity timeout) s).2 := by
  obtain ⟨processes, same⟩ := single_take host given user identity timeout s
  rw [same]
  exact (take_elapses _ _).trans (.of_eq rfl rfl)

theorem updateHandle_elapses (s : Session) {id' : Nat}
    {f : Handle Connection → Handle Connection}
    (apart : id' = id → ∀ h, (f h).results.get? key = h.results.get? key) :
    Elapses id key s (s.updateHandle id' f) := by
  refine .of_same (fun h found => ?_) fun r _ _ => Iff.rfl
  rw [handle?_updateHandle, found]
  split
  · next same => exact ⟨f h, rfl, apart same h⟩
  · exact ⟨h, rfl, rfl⟩

theorem refuse_elapses (s : Session) {id' : Nat} {t : Task} (why : String)
    (apart : id' = id → key ≠ t.key) :
    Elapses id key s (s.updateHandle id' fun h => (h.markIssueFailed (.failed t why)).2) := by
  refine updateHandle_elapses s fun same h => ?_
  rw [Handle.markIssueFailed_results]
  exact (Table.get?_putNew _ _ _ _).trans (if_neg (apart same))

theorem issue_elapses (s : Session) (q : Running) (apart : q.handle = id → key ≠ q.task.key) :
    Elapses id key s (Session.updateHandle { s with running := s.running ++ [q] } q.handle
      fun h => (h.markIssued q.task.key (some q.connection)).2) := by
  have listed : Elapses id key s { s with running := s.running ++ [q] } := by
    refine .of_same (fun h found => ⟨h, found, rfl⟩) fun r mine task => ?_
    rw [List.mem_append]
    refine or_iff_left fun new => ?_
    obtain rfl := List.mem_singleton.mp new
    exact apart mine task.symm
  exact listed.trans (updateHandle_elapses _ fun _ h => by rw [Handle.markIssued_results])

theorem startTask_elapses (e : Executor) (label : Option String) {id' : Nat} (position : Nat) {t : Task}
    (apart : id' = id → key ≠ t.key) (s : Session) :
    Elapses id key s (e.startTask label id' position t s) := by
  rcases startTask_cases e label id' position t s with
    ⟨why, log, -, -, same⟩ | ⟨x, c, -, -, -, -, -, same⟩ <;> rw [same]
  · exact ((take_elapses s _).trans (.of_eq rfl rfl)).trans (refuse_elapses _ why apart)
  · have used : Elapses id key s (s.exchange c x.events) := .of_eq rfl rfl
    exact used.trans (issue_elapses _ ⟨id', position, t, label, c⟩ apart)

theorem startTasks_elapses (e : Executor) (label : Option String) {id' : Nat} (position : Nat)
    {tasks : List Task} (apart : id' = id → key ∉ tasks.map (·.key)) (s : Session) :
    Elapses id key s (e.startTasks label id' position tasks s) := by
  induction tasks generalizing position s with
  | nil => exact pause_elapses s
  | cons t r ih =>
    have first : Elapses id key (pause s) (e.startTask label id' position t (pause s)) :=
      startTask_elapses e label position (fun same task => apart same (by simp [task])) _
    exact ((pause_elapses s).trans first).trans
      (ih _ (fun same later => apart same (List.mem_cons_of_mem _ later)) _)

theorem dispatch_elapses (e : Executor) (label : Option String) (tasks : List Task) {s : Session}
    (known : id < s.handles.length) : Elapses id key s (exec (e.dispatch label tasks) s).2 := by
  have begun : Elapses id key s { s with handles := s.handles ++ [{ tasks }] } :=
    .of_same (fun h found => ⟨h, (List.getElem?_append_left known).trans found, rfl⟩)
      fun _ _ _ => Iff.rfl
  have apart : s.handles.length = id → key ∉ tasks.map (·.key) := fun same => absurd same known.ne'
  have started := begun.trans (startTasks_elapses e label 0 apart _)
  rw [dispatch_snd]
  dsimp only
  split
  · exact started
  · exact started.trans (finishAll_elapses _ _)

theorem hangUps_elapses (cs : List Connection) (s : Session) :
    Elapses id key s (cs.foldl hangUp s) :=
  List.foldlRecOn (motive := Elapses id key s) cs hangUp (.refl s)
    fun s' w _ _ => (w.trans (pause_elapses s')).trans (.of_eq rfl rfl)

theorem close_elapses {id' : Nat} (other : id' ≠ id) (s : Session) :
    Elapses id key s (exec (close id') s).2 := by
  cases found : s.handle? id' with
  | none =>
    rw [close, exec_modify, found]
    exact .refl s
  | some h =>
    rw [exec_close_of_handle found]
    exact (updateHandle_elapses s fun same => absurd same other).trans (hangUps_elapses _ _)

theorem apply_elapses {m : Move} (kept : m ≠ .close id) {s : Session} (known : id < s.handles.length) :
    Elapses id key s (m.apply s) := by
  cases m with
  | execute e label tasks => exact execute_elapses e label tasks s
  | dispatch e label tasks => exact dispatch_elapses e label tasks known
  | single host given user identity timeout => exact single_elapses host given user identity timeout s
  | join id' => exact pause_elapses s
  | close id' => exact close_elapses (fun same => kept (congrArg Move.close same)) s
  | ended which => exact finishAll_elapses s which
  | hostsBecame hosts => exact .of_eq rfl rfl

end

/-- A handle has this result for a key, or will have it when the one command ends that runs for it. None
does unless it was started. -/
inductive Promises (id : Nat) (key : String) (r : Result) (started : Prop) (s : Session) : Prop
  | kept {h : Handle Connection} (found : s.handle? id = some h) (shown : h.results.get? key = some r)
      (idle : ¬ s.Runs id key)
  | owed {h : Handle Connection} {q : Running} (issued : started) (found : s.handle? id = some h)
      (unshown : h.results.get? key = none) (runs : q ∈ s.running) (mine : q.handle = id)
      (task : q.task.key = key) (comes : q.result = r)
      (only : ∀ q' ∈ s.running, q'.handle = id → q'.task.key = key → q' = q)

structure Fresh (id : Nat) (key : String) (s : Session) : Prop where
  found : ∃ h, s.handle? id = some h ∧ h.results.get? key = none
  idle : ¬ s.Runs id key

section
variable {id : Nat} {key : String} {r : Result} {started : Prop} {s s' : Session}

theorem Elapses.idle (w : Elapses id key s s') (idle : ¬ s.Runs id key) : ¬ s'.Runs id key := by
  obtain ⟨ended, -, -, left⟩ := w
  rintro ⟨q, runs, mine, task⟩
  exact idle ⟨q, ((left q mine task).mp runs).1, mine, task⟩

theorem Elapses.shown (w : Elapses id key s s') (idle : ¬ s.Runs id key) {h : Handle Connection}
    (found : s.handle? id = some h) :
    ∃ h', s'.handle? id = some h' ∧ h'.results.get? key = h.results.get? key := by
  obtain ⟨ended, own, entered, -⟩ := w
  obtain rfl : ended = [] := List.eq_nil_iff_forall_not_mem.mpr fun q hq => idle ⟨q, own q hq⟩
  obtain ⟨h', found', shown⟩ := entered h found
  exact ⟨h', found', by simpa using shown⟩

theorem Fresh.elapse (fresh : Fresh id key s) (w : Elapses id key s s') : Fresh id key s' := by
  obtain ⟨h, found, unshown⟩ := fresh.found
  obtain ⟨h', found', same⟩ := w.shown fresh.idle found
  exact ⟨⟨h', found', same.trans unshown⟩, w.idle fresh.idle⟩

theorem Fresh.refuse {t : Task} (fresh : Fresh id t.key s) (why : String) :
    Promises id t.key (.failed t why) started
      (s.updateHandle id fun h => (h.markIssueFailed (.failed t why)).2) := by
  obtain ⟨⟨h, found, unshown⟩, idle⟩ := fresh
  refine .kept (handle?_updateHandle_self _ found) ?_ idle
  rw [Handle.markIssueFailed_results]
  have entered := Table.get?_putNew h.results t.key t.key (.failed t why)
  rwa [if_pos rfl, unshown] at entered

theorem Fresh.issue {q : Running} (fresh : Fresh q.handle q.task.key s) (issued : started) :
    Promises q.handle q.task.key q.result started
      (Session.updateHandle { s with running := s.running ++ [q] } q.handle
        fun h => (h.markIssued q.task.key (some q.connection)).2) := by
  obtain ⟨⟨h, found, unshown⟩, idle⟩ := fresh
  refine .owed issued (handle?_updateHandle_self _ found) ?_
    (List.mem_append_right _ (List.mem_singleton_self q)) rfl rfl rfl fun q' runs mine task => ?_
  · rw [Handle.markIssued_results, unshown]
  · cases List.mem_append.mp runs with
    | inl before => exact absurd ⟨q', before, mine, task⟩ idle
    | inr new => exact List.mem_singleton.mp new

theorem Promises.elapse (p : Promises id key r started s) (w : Elapses id key s s') :
    Promises id key r started s' := by
  cases p with
  | kept found shown idle =>
    obtain ⟨h', found', same⟩ := w.shown idle found
    exact .kept found' (same.trans shown) (w.idle idle)
  | @owed h q issued found unshown runs mine task comes only =>
    obtain ⟨ended, own, entered, left⟩ := w
    obtain ⟨h', found', shown⟩ := entered h found
    rw [unshown, Option.none_or] at shown
    have only' : ∀ q' ∈ s'.running, q'.handle = id → q'.task.key = key → q' = q :=
      fun q' runs' mine' task' => only q' ((left q' mine' task').mp runs').1 mine' task'
    cases ended with
    | nil =>
      have runs' := (left q mine task).mpr ⟨runs, List.not_mem_nil⟩
      exact .owed issued found' shown runs' mine task comes only'
    | cons q' r =>
      obtain ⟨runs', mine', task'⟩ := own q' List.mem_cons_self
      obtain rfl := only q' runs' mine' task'
      refine .kept found' (shown.trans (congrArg some comes)) ?_
      rintro ⟨q'', runs'', mine'', task''⟩
      obtain rfl := only' q'' runs'' mine'' task''
      exact ((left q'' mine task).mp runs'').2 List.mem_cons_self

theorem Promises.close (p : Promises id key r started s) (idle : ¬ s.Runs id key) :
    Promises id key r started (exec (Executor.close id) s).2 := by
  cases p with
  | @kept h found shown idle =>
    rw [exec_close_of_handle found]
    have given : Promises id key r started (s.updateHandle id fun h => h.close.1) := by
      refine .kept (handle?_updateHandle_self _ found) ?_ idle
      rw [get?_results_close, shown, Option.some_or]
    exact given.elapse (hangUps_elapses _ _)
  | owed _ _ _ runs mine task => exact absurd ⟨_, runs, mine, task⟩ idle

theorem Promises.look (p : Promises id key r started s) :
    ∃ h, s.handle? id = some h ∧ (h.results.get? key = if s.Runs id key then none else some r) ∧
      (¬ started → h.results.get? key = some r) := by
  cases p with
  | kept found shown idle =>
    refine ⟨_, found, ?_, fun _ => shown⟩
    rw [if_neg idle, shown]
  | owed issued found unshown runs mine task =>
    refine ⟨_, found, ?_, fun none => absurd issued none⟩
    rw [if_pos ⟨_, runs, mine, task⟩, unshown]

theorem Promises.exec_join (p : Promises id key r started s) :
    ∃ shown s', exec (join id) s = (.ok shown, s') ∧
      (shown.get? key = if s'.Runs id key then none else some r) ∧
      (¬ started → shown.get? key = some r) := by
  refine ⟨(((pause s).handle? id).map Handle.results).getD .empty, pause s, rfl, ?_⟩
  obtain ⟨h, found, shown⟩ := (p.elapse (pause_elapses s)).look
  rw [found]
  exact shown

end

def final (e : Executor) (hosts : Host.Script) (label : Option String) (t : Task) : Result :=
  match e.refusal? hosts label t with
  | some why => .failed t why
  | none => .ofOutcome t (Host.Exchange.awaited (hosts.behaviour (channel label t)))

theorem startTask_promises (e : Executor) (label : Option String) {id : Nat} (position : Nat) {t : Task}
    {s : Session} (fresh : Fresh id t.key s) :
    Promises id t.key (e.final s.hosts label t) (e.refusal? s.hosts label t = none)
      (e.startTask label id position t s) := by
  unfold final
  rcases startTask_cases e label id position t s with
    ⟨why, log, refused, -, same⟩ | ⟨x, c, refused, -, -, channel, rfl, same⟩ <;> rw [same, refused]
  · have told : Elapses id t.key s { take s (e.errand? .started s.hosts label t) with log } :=
      (take_elapses s _).trans (.of_eq rfl rfl)
    exact (fresh.elapse told).refuse why
  · let q : Running := ⟨id, position, t, label, s.connection x.channel⟩
    have used : Fresh id t.key (s.exchange q.connection x.events) := fresh.elapse (.of_eq rfl rfl)
    have promised : Promises id t.key q.result ((none : Option String) = none) _ :=
      Fresh.issue (q := q) used rfl
    rw [← channel]
    exact promised

theorem startTasks_promises (e : Executor) (label : Option String) {id : Nat} (position : Nat)
    {tasks : List Task} (distinct : (tasks.map (·.key)).Nodup) {s : Session}
    (fresh : ∀ t ∈ tasks, Fresh id t.key s) :
    ∀ t ∈ tasks, Promises id t.key (e.final s.hosts label t) (e.refusal? s.hosts label t = none)
      (e.startTasks label id position tasks s) := by
  induction tasks generalizing position s with
  | nil => simp
  | cons u r ih =>
    rw [List.map_cons, List.nodup_cons] at distinct
    have paused : ∀ t ∈ u :: r, Fresh id t.key (pause s) :=
      fun t ht => (fresh t ht).elapse (pause_elapses s)
    have hosts : (e.startTask label id position u (pause s)).hosts = s.hosts :=
      (startTask_steady e label id position u _).hosts.trans (pause_steady s).hosts
    intro t ht
    rw [startTasks]
    cases List.mem_cons.mp ht with
    | inl first =>
      subst first
      have promised := startTask_promises e label position (paused t List.mem_cons_self)
      rw [(pause_steady s).hosts] at promised
      exact promised.elapse (startTasks_elapses e label (position + 1) (fun _ => distinct.1) _)
    | inr later =>
      rw [← hosts]
      refine ih (position + 1) distinct.2 (fun v hv => ?_) t later
      refine (paused v (List.mem_cons_of_mem u hv)).elapse (startTask_elapses e label position ?_ _)
      rintro - key
      exact distinct.1 (key ▸ List.mem_map_of_mem hv)

theorem dispatch_promises (e : Executor) (label : Option String) {tasks : List Task}
    (distinct : (tasks.map (·.key)).Nodup) {s : Session}
    (unused : ∀ r ∈ s.running, r.handle ≠ s.handles.length) {t : Task} (ht : t ∈ tasks) :
    Promises s.handles.length t.key (e.final s.hosts label t) (e.refusal? s.hosts label t = none)
      (exec (e.dispatch label tasks) s).2 := by
  let s₀ : Session := { s with handles := s.handles ++ [{ tasks }] }
  have fresh : ∀ t ∈ tasks, Fresh s.handles.length t.key s₀ := by
    refine fun t _ => ⟨⟨{ tasks }, List.getElem?_concat_length, rfl⟩, ?_⟩
    rintro ⟨r, runs, mine, -⟩
    exact unused r runs mine
  have promised := startTasks_promises e label 0 distinct fresh t ht
  rw [dispatch_snd]
  dsimp only
  split
  · exact promised
  · exact promised.elapse (finishAll_elapses _ _)

/-- A promise is not broken as long as the handle is not given up while the command runs. -/
theorem Promises.after {id : Nat} {key : String} {r : Result} {started : Prop} {ms : List Move}
    {s : Session} (p : Promises id key r started s)
    (spared : ∀ past rest, ms = past ++ .close id :: rest → ¬ (after past s).Runs id key) :
    Promises id key r started (after ms s) := by
  induction ms generalizing s with
  | nil => exact p
  | cons m ms ih =>
    refine ih ?_ fun past rest split => spared (m :: past) rest (by rw [split]; rfl)
    -- No other move can take back what the handle is owed.
    by_cases given : m = .close id
    · subst given
      exact p.close (spared [] ms rfl)
    · obtain ⟨h, found⟩ : ∃ h, s.handle? id = some h := by
        cases p with
        | kept found => exact ⟨_, found⟩
        | owed _ found => exact ⟨_, found⟩
      exact p.elapse (apply_elapses given (List.getElem?_eq_some_iff.mp found).1)

/-- Where connections close and waiting does not fail, what comes in the end of a task that is not
waited for is what comes of one that is. -/
theorem final_eq_result (e : Executor) {hosts : Host.Script} {label : Option String} {t : Task}
    (closes : (hosts.behaviour (channel label t)).closeError = none)
    (joins : (hosts.behaviour (channel label t)).joinError = none) :
    e.final hosts label t = e.result hosts label t := by
  unfold final refusal? result outcome
  cases t.command.read with
  | error f => rfl
  | ok command =>
    dsimp only
    rw [Host.Exchange.outcome_complete, Host.Exchange.outcome_launch,
      ← Host.Exchange.failure?_of_closes closes command, Host.Exchange.awaited, joins]
    cases (hosts.behaviour (channel label t)).failure? command <;> rfl

theorem not_isMute_of_text (e : Executor) {hosts : Host.Script} {label : Option String} {t : Task}
    (speaks : (hosts.behaviour (channel label t)).answer.stderr.isSome) :
    ¬ (e.result hosts label t).isMute := by
  rw [isMute_result_iff]
  rintro ⟨a, answered, -, silent⟩
  unfold outcome at answered
  split at answered
  · rw [← Host.Exchange.answer_of_complete answered, silent] at speaks
    cases speaks
  · cases answered

theorem exec_execute_alone (e : Executor) (label : Option String) {t : Task} (proper : t.isProper)
    {s : Session} (speaks : (s.hosts.behaviour (channel label t)).answer.stderr.isSome) :
    ∃ rs s', exec (e.execute label [t]) s = (.ok rs, s') ∧
      rs.get? t.key = some (e.result s.hosts label t) := by
  have distinct : ([t].map (·.key)).Nodup := by simp
  obtain ⟨rs, s', ran, -, found, -⟩ := exec_execute e label distinct (by simpa using proper) s
  rw [if_pos (by simpa using not_isMute_of_text e speaks)] at ran
  exact ⟨rs, s', ran, found t (List.mem_singleton_self t)⟩

/-- Waiting for a task and supervising it come to the same, where its connection can be closed and its
command waited for, and the host has a text of its complaints. Whatever is done after a fan-out that is
not waited for, its handle shows for the task what a barrier of it alone would have returned: at once if
the task could not be issued, and else as soon as its command has ended. Only if the handle was given up
before is it not so. -/
theorem supervised_eq_awaited (e : Executor) (label : Option String) {tasks : List Task}
    (distinct : (tasks.map (·.key)).Nodup) {t : Task} (member : t ∈ tasks) (proper : t.command ≠ .other)
    {s : Session} (unused : ∀ r ∈ s.running, r.handle ≠ s.handles.length)
    (closes : (s.hosts.behaviour (channel label t)).closeError = none)
    (joins : (s.hosts.behaviour (channel label t)).joinError = none)
    (speaks : (s.hosts.behaviour (channel label t)).answer.stderr.isSome) (later : List Move)
    (spared : ∀ past rest, later = past ++ .close s.handles.length :: rest →
      ¬ (after past (exec (e.dispatch label tasks) s).2).Runs s.handles.length t.key) :
    let id := s.handles.length
    let dispatched := (exec (e.dispatch label tasks) s).2
    ∃ rs s₁ r, exec (e.execute label [t]) s = (.ok rs, s₁) ∧ rs.get? t.key = some r ∧
      ∃ shown s₂, exec (join id) (after later dispatched) = (.ok shown, s₂) ∧
        (shown.get? t.key = if s₂.Runs id t.key then none else some r) ∧
        ((e.refusal? s.hosts label t).isSome → shown.get? t.key = some r) := by
  intro id dispatched
  obtain ⟨rs, s₁, ran, found⟩ := exec_execute_alone e label (isProper_of_ne proper) speaks
  have promised := dispatch_promises e label distinct unused member
  rw [final_eq_result e closes joins] at promised
  obtain ⟨shown, s₂, looked, shows, atOnce⟩ := (promised.after spared).exec_join
  exact ⟨rs, s₁, _, ran, found, shown, s₂, looked, shows, fun refused =>
    atOnce (Option.isSome_iff_ne_none.mp refused)⟩

/-- A command with an upload and a time limit that does not apply ends with a code, and then the handle
is given up; a second task could not send the second of its files. Both are shown as barriers would have
returned them. -/
theorem shown_as_awaited :
    let e : Executor := ⟨⟨none, none, none⟩, []⟩
    let a : Task := ⟨"a", "host0",
      .command { line := "false", uploads := [⟨"~/x", none, some "text"⟩],
                 timeout := some (.num (.int 5)) }⟩
    let b : Task := ⟨"b", "host1",
      .command { line := "true", uploads := [⟨"x", none, some "text"⟩, ⟨"y", some "local", none⟩] }⟩
    let hosts : Host.Script := [
      ⟨none, some (some "a"), none, { answer := ⟨some 3, some "", some "no\n"⟩ }⟩,
      ⟨none, some (some "b"), none, { putErrors := [none, some "full"] }⟩]
    let s := Session.new hosts ⟨.empty, "/", "/", "/tmp", []⟩ "1"
    let dispatched := (exec (e.dispatch none [a, b]) s).2
    let later : List Move := [.ended fun r => r.task.key = "a", .close 0]
    ([a, b].map (·.key)).Nodup ∧ a.command ≠ .other ∧ b.command ≠ .other ∧
      (∀ r ∈ s.running, r.handle ≠ s.handles.length) ∧
      (∀ t ∈ [a, b], (s.hosts.behaviour (channel none t)).closeError = none ∧
        (s.hosts.behaviour (channel none t)).joinError = none ∧
        (s.hosts.behaviour (channel none t)).answer.stderr.isSome) ∧
      (∀ past rest, later = past ++ .close s.handles.length :: rest →
        ∀ t ∈ [a, b], ¬ (after past dispatched).Runs s.handles.length t.key) ∧
      (∃ shown s₂, exec (join 0) (after later dispatched) = (.ok shown, s₂) ∧
        shown.get? "a" = some ⟨"a", some "host0", some 3, some "", some "no\n", none⟩) ∧
      ∃ shown s₂, exec (join 0) dispatched = (.ok shown, s₂) ∧
        shown.get? "b" = some ⟨"b", some "host1", none, some "", some "", some "full"⟩ := by
  intro e a b hosts s dispatched later
  have distinct : ([a, b].map (·.key)).Nodup := by decide
  have unused : ∀ r ∈ s.running, r.handle ≠ s.handles.length := by decide
  have mild : ∀ t ∈ [a, b], (s.hosts.behaviour (channel none t)).closeError = none ∧
      (s.hosts.behaviour (channel none t)).joinError = none ∧
      (s.hosts.behaviour (channel none t)).answer.stderr.isSome := by decide
  have spared : ∀ past rest, later = past ++ .close s.handles.length :: rest →
      ∀ t ∈ [a, b], ¬ (after past dispatched).Runs s.handles.length t.key := by
    rintro (_ | ⟨m, _ | ⟨m', past⟩⟩) rest split
    · cases (List.cons.inj split).1
    · obtain rfl := (List.cons.inj split).1
      decide
    · have length := congrArg List.length split
      simp [later] at length
  refine ⟨distinct, by decide, by decide, unused, mild, spared, ?_, ?_⟩
  · obtain ⟨closes, joins, speaks⟩ := mild a (by decide)
    obtain ⟨rs, s₁, r, ran, found, shown, s₂, looked, shows, -⟩ := supervised_eq_awaited e none distinct
      (t := a) (by decide) (by decide) unused closes joins speaks later
      fun past rest split => spared past rest split a (by decide)
    have returned : (exec (e.execute none [a]) s).1 = .ok (Table.empty.put "a"
      ⟨"a", some "host0", some 3, some "", some "no\n", none⟩) := rfl
    cases returned.symm.trans (congrArg Prod.fst ran)
    have ended : ¬ s₂.Runs s.handles.length a.key := by
      obtain rfl := congrArg Prod.snd looked
      decide
    rw [if_neg ended] at shows
    exact ⟨shown, s₂, looked, shows.trans found.symm⟩
  · obtain ⟨closes, joins, speaks⟩ := mild b (by decide)
    obtain ⟨rs, s₁, r, ran, found, shown, s₂, looked, -, once⟩ := supervised_eq_awaited e none distinct
      (t := b) (by decide) (by decide) unused closes joins speaks [] (by simp)
    have returned : (exec (e.execute none [b]) s).1 = .ok (Table.empty.put "b"
      ⟨"b", some "host1", none, some "", some "", some "full"⟩) := rfl
    cases returned.symm.trans (congrArg Prod.fst ran)
    exact ⟨shown, s₂, looked, (once (by decide)).trans found.symm⟩

end Executor
end Flotilla
