import Flotilla.Executor.Basic
import Flotilla.Proofs.Steps

namespace Flotilla

namespace Session

/-- What the program has to do besides its action: at its end, and with the store. -/
structure Errands where
  exitTasks : List ExitTask
  refusal : Option String
  shipments : List Shipment

def errands (s : Session) : Errands := ⟨s.exitTasks, s.storeRefusal, s.shipments⟩

/-- From one state to a later one the setting stays. Of what ends meanwhile, only less is left. -/
structure Steady (s s' : Session) : Prop where
  hosts : s'.hosts = s.hosts
  disk : s'.disk = s.disk
  holds : s'.holds = s.holds
  meanwhile : s.meanwhile = [] → s'.meanwhile = []
  errands : s'.errands = s.errands

theorem Steady.refl (s : Session) : s.Steady s := ⟨rfl, rfl, rfl, id, rfl⟩

theorem Steady.trans {s s' s'' : Session} (a : s.Steady s') (b : s'.Steady s'') : s.Steady s'' :=
  ⟨b.hosts.trans a.hosts, b.disk.trans a.disk, b.holds.trans a.holds,
    fun idle => b.meanwhile (a.meanwhile idle), b.errands.trans a.errands⟩

theorem note_steady (s : Session) (who : Speaker) (r : Log.Record) : s.Steady (s.note who r) :=
  ⟨rfl, rfl, rfl, id, rfl⟩

theorem exchange_steady (s : Session) (c : Connection) (events : List Host.Event) :
    s.Steady (s.exchange c events) := ⟨rfl, rfl, rfl, id, rfl⟩

theorem updateHandle_steady (s : Session) (id : Nat)
    (f : Executor.Handle Connection → Executor.Handle Connection) :
    s.Steady (s.updateHandle id f) := ⟨rfl, rfl, rfl, fun idle => idle, rfl⟩

/-- Started commands run on until they are released, and none is while the caller is busy. -/
structure Undisturbed (s : Session) : Prop where
  holds : s.holds = true
  meanwhile : s.meanwhile = []

theorem Undisturbed.keep {s s' : Session} (h : s.Undisturbed) (steady : s.Steady s') :
    s'.Undisturbed := ⟨steady.holds.trans h.holds, steady.meanwhile h.meanwhile⟩

end Session

namespace Executor
open Session

theorem finish_steady (s : Session) (r : Running) : s.Steady (finish s r) :=
  ⟨rfl, rfl, rfl, id, rfl⟩

theorem finishAll_steady (s : Session) (which : Running → Bool) : s.Steady (finishAll s which) :=
  List.foldlRecOn (motive := s.Steady) _ finish (.refl s)
    fun s' steady r _ => steady.trans (finish_steady s' r)

theorem pause_steady (s : Session) : s.Steady (pause s) := by
  unfold pause
  split
  · exact .refl s
  · next which later more =>
    have ended := finishAll_steady { s with meanwhile := later } which
    exact ⟨ended.hosts, ended.disk, ended.holds, fun idle => by simp [idle] at more, ended.errands⟩

theorem pause_of_undisturbed {s : Session} (h : s.Undisturbed) : pause s = s := by
  rw [pause, h.meanwhile]

theorem runTask_steady (e : Executor) (label : Option String) (t : Task) (s : Session) :
    s.Steady (e.runTask label t s).2 := by
  unfold runTask
  split
  · exact .refl s
  · dsimp only
    split
    · exact exchange_steady s _ _
    · exact (exchange_steady s _ _).trans (note_steady _ _ _)

theorem runTasks_steady (e : Executor) (label : Option String) (tasks : List Task) (rs : Results)
    (s : Session) : s.Steady (e.runTasks label tasks rs s).2 := by
  induction tasks generalizing rs s with
  | nil => exact pause_steady s
  | cons t r ih => exact ((pause_steady s).trans (e.runTask_steady label t _)).trans (ih _ _)

theorem steady_bind {α β : Type} {x : Run α} {f : α → Run β} {s : Session}
    (first : s.Steady (exec x s).2) (later : ∀ a (s' : Session), s'.Steady (exec (f a) s').2) :
    s.Steady (exec (x >>= f) s).2 := by
  rw [exec_bind]
  rcases taken : exec x s with ⟨_ | a, s'⟩ <;> rw [taken] at first
  · exact first
  · exact first.trans (later a s')

theorem logResult_steady (results : Results) (t : Task) (s : Session) :
    s.Steady (exec (logResult results t) s).2 := by
  unfold logResult
  split
  · exact .refl s
  · split
    · exact .refl s
    · split
      · exact note_steady s _ _
      · exact .refl s

theorem logResults_steady (results : Results) (tasks : List Task) (s : Session) :
    s.Steady (exec (tasks.forM (logResult results)) s).2 := by
  induction tasks generalizing s with
  | nil => exact .refl s
  | cons t r ih =>
    rw [List.forM_eq_forM, List.forM_cons]
    exact steady_bind (logResult_steady results t s) fun _ => ih

theorem execute_steady (e : Executor) (label : Option String) (tasks : List Task) (s : Session) :
    s.Steady (exec (e.execute label tasks) s).2 := by
  have ran := runTasks_steady e label tasks .empty s
  rw [execute, exec_bind, exec_get]
  rcases taken : e.runTasks label tasks .empty s with ⟨rs, s'⟩
  rw [taken] at ran
  simp only [taken]
  rw [exec_bind, exec_set]
  exact ran.trans (steady_bind (logResults_steady rs tasks s') fun _ => .refl)

theorem startTask_steady (e : Executor) (label : Option String) (id position : Nat) (t : Task)
    (s : Session) : s.Steady (e.startTask label id position t s) := by
  have failed (s : Session) (why : String) : s.Steady
      ((s.note .task (Log.error s!"{t.key}: failed to issue command: {why}")).updateHandle id
        fun h => (h.markIssueFailed (.failed t why)).2) :=
    (note_steady s _ _).trans (updateHandle_steady _ _ _)
  unfold startTask
  split
  · exact failed s _
  · dsimp only
    split
    · exact (exchange_steady s _ _).trans (failed _ _)
    · exact ⟨rfl, rfl, rfl, fun idle => idle, rfl⟩

theorem startTasks_steady (e : Executor) (label : Option String) (id position : Nat)
    (tasks : List Task) (s : Session) : s.Steady (e.startTasks label id position tasks s) := by
  induction tasks generalizing position s with
  | nil => exact pause_steady s
  | cons t r ih =>
    exact ((pause_steady s).trans (e.startTask_steady label id position t _)).trans (ih _ _)

theorem dispatch_steady (e : Executor) (label : Option String) (tasks : List Task) (s : Session) :
    s.Steady (exec (e.dispatch label tasks) s).2 := by
  have begun : s.Steady { s with handles := s.handles ++ [{ tasks }] } := ⟨rfl, rfl, rfl, id, rfl⟩
  have started := begun.trans (e.startTasks_steady label s.handles.length 0 tasks _)
  rw [dispatch, exec_bind_ok (exec_get s)]
  change s.Steady (if _ then _ else _)
  split
  · exact started
  · exact started.trans (finishAll_steady _ _)

theorem close_steady (id : Nat) (s : Session) : s.Steady (exec (close id) s).2 := by
  unfold close
  rw [exec_modify]
  dsimp only
  split
  · exact .refl s
  · next h _ =>
    exact List.foldlRecOn (motive := s.Steady) h.close.2 hangUp (updateHandle_steady s _ _)
      fun s' steady c _ => steady.trans ((pause_steady s').trans ⟨rfl, rfl, rfl, fun idle => idle, rfl⟩)

theorem join_steady (id : Nat) (s : Session) : s.Steady (exec (join id) s).2 := pause_steady s

end Executor
end Flotilla
