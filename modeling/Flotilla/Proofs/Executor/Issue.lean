import Flotilla.Proofs.Executor.FanOut
import Flotilla.Proofs.Session.Setting

namespace Flotilla.Executor
open Session

def refusal? (e : Executor) (hosts : Host.Script) (label : Option String) (t : Task) :
    Option String :=
  match t.command.read with
  | .error f => some f.message
  | .ok command =>
    match (Host.Exchange.launch (hosts.behaviour (channel label t)) e.access command).outcome with
    | .error why => some why
    | .ok _ => none

def refuse (e : Executor) (hosts : Host.Script) (label : Option String) (rs : Results) (t : Task) :
    Results :=
  match e.refusal? hosts label t with
  | some why => rs.putNew t.key (.failed t why)
  | none => rs

def refusals (e : Executor) (hosts : Host.Script) (label : Option String) (tasks : List Task) :
    Results := tasks.foldl (e.refuse hosts label) .empty

theorem handle?_startTask (e : Executor) (label : Option String) {id : Nat} (position : Nat) (t : Task)
    {s : Session} {h : Handle Connection} (found : s.handle? id = some h) :
    ∃ h', (e.startTask label id position t s).handle? id = some h' ∧ h'.tasks = h.tasks ∧
      h'.results = e.refuse s.hosts label h.results t := by
  have failed (s : Session) (why : String) (found : s.handle? id = some h) :
      ∃ h', (s.updateHandle id fun h => (h.markIssueFailed (.failed t why)).2).handle? id = some h' ∧
        h'.tasks = h.tasks ∧ h'.results = h.results.putNew t.key (.failed t why) :=
    ⟨_, handle?_updateHandle_self _ found, Handle.markIssueFailed_tasks _ _,
      Handle.markIssueFailed_results _ _⟩
  unfold startTask refuse refusal?
  cases t.command.read with
  | error f => exact failed _ f.message found
  | ok command =>
    dsimp only [connection]
    split
    · next why refused =>
      rw [refused]
      exact failed _ why found
    · next issued =>
      rw [issued]
      exact ⟨_, handle?_updateHandle_self _ found, Handle.markIssued_tasks _ _ _,
        Handle.markIssued_results _ _ _⟩

theorem handle?_startTasks (e : Executor) (label : Option String) {id : Nat} (position : Nat)
    (tasks : List Task) {s : Session} (undisturbed : s.Undisturbed) {h : Handle Connection}
    (found : s.handle? id = some h) :
    ∃ h', (e.startTasks label id position tasks s).handle? id = some h' ∧ h'.tasks = h.tasks ∧
      h'.results = tasks.foldl (e.refuse s.hosts label) h.results := by
  induction tasks generalizing position s h with
  | nil =>
    rw [startTasks, pause_of_undisturbed undisturbed]
    exact ⟨h, found, rfl, rfl⟩
  | cons t r ih =>
    rw [startTasks, pause_of_undisturbed undisturbed]
    have steady := startTask_steady e label id position t s
    obtain ⟨h₁, found₁, tasks₁, results₁⟩ := handle?_startTask e label position t found
    obtain ⟨h₂, found₂, tasks₂, results₂⟩ := ih (position + 1) (undisturbed.keep steady) found₁
    refine ⟨h₂, found₂, tasks₂.trans tasks₁, ?_⟩
    rw [results₂, steady.hosts, results₁, List.foldl_cons]

theorem exec_dispatch_of_undisturbed (e : Executor) (label : Option String) (tasks : List Task)
    {s : Session} (undisturbed : s.Undisturbed) :
    ∃ s' h, exec (e.dispatch label tasks) s = (.ok s.handles.length, s') ∧ s.Steady s' ∧
      s'.handle? s.handles.length = some h ∧ h.tasks = tasks ∧
      h.results = e.refusals s.hosts label tasks := by
  let s₀ : Session := { s with handles := s.handles ++ [{ tasks }] }
  have same : s.Steady s₀ := ⟨rfl, rfl, rfl, id, rfl⟩
  have steady := same.trans (startTasks_steady e label s.handles.length 0 tasks s₀)
  have found₀ : s₀.handle? s.handles.length = some { tasks } := by simp [s₀, handle?]
  obtain ⟨h, found, given, results⟩ :=
    handle?_startTasks e label 0 tasks (undisturbed.keep same) found₀
  refine ⟨_, h, ?_, steady, found, given, results⟩
  rw [dispatch, exec_bind, exec_get]
  simp only [exec_bind, exec_set, exec_pure]
  rw [if_pos (undisturbed.keep steady).holds]

end Flotilla.Executor
