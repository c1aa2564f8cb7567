import Flotilla.Proofs.Executor.Supervision

namespace Flotilla.Executor
open Session

theorem result_of_runTask {e : Executor} {label : Option String} {t : Task} {s : Session} {r : Result}
    (h : (e.runTask label t s).1 = some r) : r = e.result s.hosts label t := by
  by_cases proper : t.isProper
  · rw [runTask_fst e label proper] at h
    exact (Option.some.inj h).symm
  · unfold runTask at h
    cases read : t.command.read with
    | error f =>
      rw [read] at h
      cases h
    | ok command => simp [Task.isProper, read, Except.isOk, Except.toBool] at proper

theorem result_of_runTasks {e : Executor} {label : Option String} {tasks : List Task} {rs : Results}
    {s : Session} {key : String} {r : Result}
    (h : (e.runTasks label tasks rs s).1.get? key = some r) :
    rs.get? key = some r ∨ ∃ t ∈ tasks, r = e.result s.hosts label t := by
  induction tasks generalizing rs s with
  | nil => exact .inl h
  | cons t r ih =>
    rw [runTasks] at h
    rcases taken : e.runTask label t (pause s) with ⟨x, s'⟩
    rw [taken] at h
    have hosts : (pause s).hosts = s.hosts := (pause_grows s).hosts
    have hosts' : s'.hosts = s.hosts := by
      rw [← hosts, ← (e.runTask_grows label t (pause s)).hosts, taken]
    rcases ih h with before | ⟨u, member, rfl⟩
    · cases x with
      | none => exact .inl before
      | some y =>
        dsimp only at before
        rw [Table.get?_put] at before
        split at before
        · obtain rfl := Option.some.inj before
          refine .inr ⟨t, List.mem_cons_self, ?_⟩
          rw [← hosts]
          exact result_of_runTask (congrArg Prod.fst taken)
        · exact .inl before
    · rw [hosts']
      exact .inr ⟨u, List.mem_cons_of_mem t member, rfl⟩

theorem result_of_execute {e : Executor} {label : Option String} {tasks : List Task} {s s' : Session}
    {rs : Results} (ran : exec (e.execute label tasks) s = (.ok rs, s')) {key : String} {r : Result}
    (found : rs.get? key = some r) : ∃ t ∈ tasks, r = e.result s.hosts label t := by
  rw [execute, exec_bind_ok (exec_get s), exec_bind_ok (exec_set _ _)] at ran
  obtain ⟨-, s'', -, returned⟩ := of_exec_bind ran
  obtain rfl := Except.ok.inj (congrArg Prod.fst returned)
  rcases result_of_runTasks found with none | among
  · cases none
  · exact among

/-- Every result of a handle is of a kind: those it has, and those that its commands will enter. -/
structure Bears (P : Result → Prop) (id : Nat) (s : Session) : Prop where
  found : ∃ h, s.handle? id = some h ∧ ∀ key r, h.results.get? key = some r → P r
  comes : ∀ q ∈ s.running, q.handle = id → P q.result

namespace Bears
variable {P : Result → Prop} {id : Nat} {s s' : Session}

theorem elapse (b : Bears P id s) (w : ∀ key, Elapses id key s s') : Bears P id s' := by
  obtain ⟨h, found, had⟩ := b.found
  constructor
  · obtain ⟨_, -, entered, -⟩ := w ""
    obtain ⟨h', found', -⟩ := entered h found
    refine ⟨h', found', fun key r shown => ?_⟩
    obtain ⟨ended, own, entered, -⟩ := w key
    obtain ⟨_, same, shown'⟩ := entered h found
    obtain rfl := Option.some.inj (found'.symm.trans same)
    rw [shown', Option.or_eq_some_iff] at shown
    rcases shown with before | ⟨-, new⟩
    · exact had key r before
    · obtain ⟨q, first, rfl⟩ := Option.map_eq_some_iff.mp new
      obtain ⟨runs, mine, -⟩ := own q (List.mem_of_head? first)
      exact b.comes q runs mine
  · intro q runs mine
    obtain ⟨_, -, -, left⟩ := w q.task.key
    exact b.comes q ((left q mine rfl).mp runs).1 mine

theorem close (b : Bears P id s) (closed : ∀ t, P (.failed t Handle.closedText)) :
    Bears P id (exec (Executor.close id) s).2 := by
  obtain ⟨h, found, had⟩ := b.found
  rw [exec_close_of_handle found]
  have given : Bears P id (s.updateHandle id fun h => h.close.1) := by
    refine ⟨⟨h.close.1, handle?_updateHandle_self _ found, fun key r shown => ?_⟩, b.comes⟩
    rw [get?_results_close, Option.or_eq_some_iff] at shown
    rcases shown with before | ⟨-, new⟩
    · exact had key r before
    · obtain ⟨t, -, rfl⟩ := List.mem_map.mp (List.mem_of_find?_eq_some new)
      exact closed t
  exact given.elapse fun key => hangUps_elapses _ _

theorem known (b : Bears P id s) : id < s.handles.length := by
  obtain ⟨h, found, -⟩ := b.found
  exact (List.getElem?_eq_some_iff.mp found).1

theorem after (b : Bears P id s) (closed : ∀ t, P (.failed t Handle.closedText)) (ms : List Move) :
    Bears P id (after ms s) := by
  induction ms generalizing s with
  | nil => exact b
  | cons m ms ih =>
    refine ih ?_
    by_cases given : m = .close id
    · subst given
      exact b.close closed
    · exact b.elapse fun key => apply_elapses given b.known

theorem exec_join (b : Bears P id s) {rs : Results} {s' : Session}
    (looked : exec (join id) s = (.ok rs, s')) : ∀ key r, rs.get? key = some r → P r := by
  obtain ⟨h, found, had⟩ := (b.elapse fun key => pause_elapses s).found
  have shown : exec (join id) s = (.ok h.results, pause s) := by
    have same : ((((pause s).handle? id).map Handle.results).getD .empty) = h.results := by rw [found]; rfl
    rw [← same]
    rfl
  obtain rfl := Except.ok.inj (congrArg Prod.fst (shown.symm.trans looked))
  exact had

end Bears

section
variable {P : Result → Prop}

theorem startTask_bears (e : Executor) (label : Option String) {id : Nat} (position : Nat) {t : Task}
    {s : Session} (b : Bears P id s) (final : P (e.final s.hosts label t)) :
    Bears P id (e.startTask label id position t s) := by
  unfold Executor.final at final
  rcases startTask_cases e label id position t s with
    ⟨why, log, refused, -, same⟩ | ⟨x, c, issued, -, -, channel, rfl, same⟩ <;> rw [same]
  · rw [refused] at final
    have used : Bears P id { take s (e.errand? .started s.hosts label t) with log } :=
      b.elapse fun key => (take_elapses s _).trans (.of_eq rfl rfl)
    obtain ⟨h, found, had⟩ := used.found
    refine ⟨⟨_, handle?_updateHandle_self _ found, fun key r shown => ?_⟩, used.comes⟩
    rw [Handle.markIssueFailed_results, Table.get?_putNew] at shown
    split at shown
    · cases before : h.results.get? (Result.failed t why).key with
      | none =>
        rw [before] at shown
        exact Option.some.inj shown ▸ final
      | some r' =>
        rw [before] at shown
        exact Option.some.inj shown ▸ had _ r' before
    · exact had key r shown
  · rw [issued] at final
    obtain ⟨h, found, had⟩ := b.found
    have found' : Session.handle? { s.exchange (s.connection x.channel) x.events with
        running := s.running ++ [⟨id, position, t, label, s.connection x.channel⟩] } id = some h := found
    refine ⟨⟨_, handle?_updateHandle_self _ found', fun key r shown => ?_⟩, fun q runs mine => ?_⟩
    · rw [Handle.markIssued_results] at shown
      exact had key r shown
    · cases List.mem_append.mp runs with
      | inl before => exact b.comes q before mine
      | inr new =>
        obtain rfl := List.mem_singleton.mp new
        rw [← channel] at final
        exact final

theorem startTasks_bears (e : Executor) (label : Option String) {id : Nat} (position : Nat)
    {tasks : List Task} {s : Session} (b : Bears P id s)
    (final : ∀ t ∈ tasks, P (e.final s.hosts label t)) :
    Bears P id (e.startTasks label id position tasks s) := by
  induction tasks generalizing position s with
  | nil => exact b.elapse fun key => pause_elapses s
  | cons t r ih =>
    have hosts : (pause s).hosts = s.hosts := (pause_steady s).hosts
    have first : Bears P id (e.startTask label id position t (pause s)) :=
      startTask_bears e label position (b.elapse fun key => pause_elapses s)
        (hosts ▸ final t List.mem_cons_self)
    refine ih (position + 1) first fun u member => ?_
    rw [(startTask_steady e label id position t _).hosts, hosts]
    exact final u (List.mem_cons_of_mem t member)

theorem dispatch_bears (e : Executor) (label : Option String) {tasks : List Task} {s : Session}
    (unused : ∀ r ∈ s.running, r.handle ≠ s.handles.length)
    (final : ∀ t ∈ tasks, P (e.final s.hosts label t)) :
    Bears P s.handles.length (exec (e.dispatch label tasks) s).2 := by
  let s₀ : Session := { s with handles := s.handles ++ [{ tasks }] }
  have new : Bears P s.handles.length s₀ :=
    ⟨⟨{ tasks }, List.getElem?_concat_length, nofun⟩, fun q runs mine => absurd mine (unused q runs)⟩
  have started := startTasks_bears e label 0 new final
  rw [dispatch_snd]
  dsimp only
  split
  · exact started
  · exact started.elapse fun key => finishAll_elapses _ _

end

theorem running_finishes (rs : List Running) (s : Session) :
    (rs.foldl finish s).running = s.running.filter (· ∉ rs) := by
  induction rs generalizing s with
  | nil => simp
  | cons r rs ih =>
    rw [List.foldl_cons, ih]
    change (s.running.filter (· != r)).filter _ = _
    rw [List.filter_filter]
    refine List.filter_congr fun q _ => ?_
    by_cases same : q = r <;> simp [same]

theorem running_finishAll (s : Session) : (finishAll s fun _ => true).running = [] := by
  rw [finishAll, running_finishes]
  simp

theorem shown_when_ended (e : Executor) (label : Option String) {tasks : List Task}
    (distinct : (tasks.map (·.key)).Nodup) {s : Session}
    (unused : ∀ r ∈ s.running, r.handle ≠ s.handles.length) {t : Task} (member : t ∈ tasks) :
    ∃ rs s', exec (join s.handles.length)
        (after [.ended fun _ => true] (exec (e.dispatch label tasks) s).2) = (.ok rs, s') ∧
      rs.get? t.key = some (e.final s.hosts label t) := by
  let ms : List Move := [.ended fun _ => true]
  have spared : ∀ past rest, ms = past ++ .close s.handles.length :: rest →
      ¬ (after past (exec (e.dispatch label tasks) s).2).Runs s.handles.length t.key := by
    intro past rest split
    rcases past with _ | ⟨m, past⟩
    · cases (List.cons.inj split).1
    · have length := congrArg List.length split
      simp [ms] at length
  have promised := (dispatch_promises e label distinct unused member).after spared
  obtain ⟨rs, s', looked, shown, -⟩ := promised.exec_join
  refine ⟨rs, s', looked, shown.trans (if_neg ?_)⟩
  rintro ⟨q, runs, -⟩
  obtain rfl : s' = pause _ := (congrArg Prod.snd looked).symm
  have none := (pause_wanes _).running q runs
  rw [after, List.foldl_cons, List.foldl_nil, Move.apply, running_finishAll] at none
  cases none

end Flotilla.Executor
