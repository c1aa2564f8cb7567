import Flotilla.Proofs.Host.Exchange
import Flotilla.Proofs.Session.Growth
import Flotilla.Proofs.Steps

namespace Flotilla.Executor
open Session

def Task.isProper (t : Task) : Bool := t.command.read.isOk

def channels (label : Option String) (tasks : List Task) : List Host.Channel :=
  (tasks.filter Task.isProper).map (channel label)

theorem channels_cons (label : Option String) (t : Task) (tasks : List Task) :
    channels label (t :: tasks) = channels label [t] ++ channels label tasks := by
  rw [channels, ← List.singleton_append, List.filter_append, List.map_append]
  rfl

theorem channels_proper (label : Option String) {t : Task} {c : Command}
    (h : t.command.read = .ok c) : channels label [t] = [channel label t] := by
  simp [channels, Task.isProper, h, Except.isOk, Except.toBool]

theorem channels_improper (label : Option String) {t : Task} {f : Fault}
    (h : t.command.read = .error f) : channels label [t] = [] := by
  simp [channels, Task.isProper, h, Except.isOk, Except.toBool]

theorem channels_eq_map (label : Option String) {tasks : List Task} (h : ∀ t ∈ tasks, t.isProper) :
    channels label tasks = tasks.map (channel label) := by
  rw [channels, List.filter_eq_self.mpr h]

theorem fleetTasks_filterMap (nodes : List Node) (f : Node → Option Command) :
    fleetTasks nodes (fun n => (f n).map .command) =
      .ok (nodes.filterMap fun n => (f n).map fun c => ⟨n.name, n.address, .command c⟩) := by
  let task? (n : Node) : Option Task := (f n).map fun c => ⟨n.name, n.address, .command c⟩
  unfold fleetTasks
  refine (congrArg (· >>= fun tasks => pure (tasks.filterMap id))
    (?_ : _ = Except.ok (nodes.map task?))).trans ?_
  · have read : nodes.mapM (fun n => pure (task? n)) =
        (.ok (nodes.map task?) : Except Fault (List (Option Task))) := List.mapM_pure
    rw [← read]
    congr 1
    funext n
    simp only [task?]
    cases f n <;> rfl
  · change Except.ok ((nodes.map task?).filterMap id) = _
    rw [List.filterMap_map]
    rfl

theorem fleetTasks_command (nodes : List Node) (f : Node → Command) :
    fleetTasks nodes (fun n => some (.command (f n))) =
      .ok (nodes.map fun n => ⟨n.name, n.address, .command (f n)⟩) := by
  have all := fleetTasks_filterMap nodes fun n => some (f n)
  simp only [Option.map_some] at all
  rw [all]
  exact congrArg Except.ok (congrFun List.filterMap_eq_map' nodes)

theorem exchange_grows (s : Session) (c : Connection) {a : Host.Access} {events : List Host.Event}
    (h : ∃ inside, events = a.event :: inside ∧ ∀ e ∈ inside, e.opens = false) :
    s.Grows (s.exchange c events) [c.channel] [] := by
  obtain ⟨inside, rfl, closed⟩ := h
  have passed := Grows.happen s c (a.event :: inside)
  have first : openings ((a.event :: inside).map fun e => ⟨c.id, c.channel, e⟩) = [c.channel] := by
    simp only [List.map_cons, openings, List.filterMap_cons]
    have none : (inside.map fun e => (⟨c.id, c.channel, e⟩ : Happening)).filterMap
        Happening.opening? = [] := by
      rw [List.filterMap_map, List.filterMap_eq_nil_iff]
      intro e he
      have := closed e he
      cases e <;> simp_all [Host.Event.opens, Happening.opening?]
    rw [none]
    rfl
  rw [first] at passed
  exact ⟨passed.hosts, passed.trace, passed.log, passed.handles⟩

theorem runTask_grows (e : Executor) (label : Option String) (t : Task) (s : Session) :
    s.Grows (e.runTask label t s).2 (channels label [t]) [] := by
  unfold runTask
  cases h : t.command.read with
  | error f =>
    rw [channels_improper label h]
    exact .refl s
  | ok command =>
    rw [channels_proper label h]
    have used := exchange_grows s (s.connection (channel label t))
      (Host.Exchange.events_complete (s.connection (channel label t)).behaviour e.access command)
    dsimp only
    split
    · exact used
    · exact used.trans (.note _ .task _)

theorem runTasks_grows (e : Executor) (label : Option String) (tasks : List Task) (rs : Results)
    (s : Session) : s.Grows (e.runTasks label tasks rs s).2 (channels label tasks) [] := by
  induction tasks generalizing rs s with
  | nil => exact pause_grows s
  | cons t r ih =>
    rw [channels_cons]
    exact ((pause_grows s).trans (e.runTask_grows label t _)).trans (ih _ _)

theorem isIssued_settle {h : Handle Connection} {key : String} (known : h.knows key) :
    (h.settle key).2.isIssued key := by
  simp [Handle.settle, known, Handle.isIssued]

theorem knows_of_mem {h : Handle Connection} {t : Task} (ht : t ∈ h.tasks) : h.knows t.key :=
  List.any_eq_true.mpr ⟨t, ht, beq_self_eq_true t.key⟩

theorem startTask_grows (e : Executor) (label : Option String) (id position : Nat) (t : Task)
    (s : Session) : s.Grows (e.startTask label id position t s) (channels label [t]) [] := by
  have failed (s : Session) (why : String) : s.Grows
      ((s.note .task (Log.error s!"{t.key}: failed to issue command: {why}")).updateHandle id
        fun h => (h.markIssueFailed (.failed t why)).2) [] [] :=
    (Grows.note s .task _).trans (.updateHandle _ id fun h => .markIssueFailed h _)
  unfold startTask
  cases h : t.command.read with
  | error f =>
    rw [channels_improper label h]
    exact failed s f.message
  | ok command =>
    rw [channels_proper label h]
    have used := exchange_grows s (s.connection (channel label t))
      (Host.Exchange.events_launch (s.connection (channel label t)).behaviour e.access command)
    dsimp only
    split
    · exact used.trans (failed _ _)
    · have kept : s.Grows { s.exchange (s.connection (channel label t))
          (Host.Exchange.launch (s.connection (channel label t)).behaviour e.access command).events
          with running := s.running ++ [⟨id, position, t, label, s.connection (channel label t)⟩] }
          [channel label t] [] := ⟨used.hosts, used.trace, used.log, used.handles⟩
      exact kept.trans (.updateHandle _ id fun h => .markIssued h _ _)

theorem isIssued_startTask (e : Executor) (label : Option String) {id : Nat} (position : Nat)
    {t : Task} {s : Session} {h : Handle Connection} (found : s.handle? id = some h)
    (ht : t ∈ h.tasks) :
    ∃ h', (e.startTask label id position t s).handle? id = some h' ∧ h'.isIssued t.key := by
  have refused (s : Session) (why : String) (found : s.handle? id = some h) :
      ∃ h', (s.updateHandle id fun h => (h.markIssueFailed (.failed t why)).2).handle? id = some h' ∧
        h'.isIssued t.key :=
    ⟨_, handle?_updateHandle_self _ found, isIssued_settle (knows_of_mem ht)⟩
  unfold startTask
  cases t.command.read with
  | error f => exact refused _ f.message found
  | ok command =>
    dsimp only
    split
    · next why _ => exact refused _ why found
    · exact ⟨_, handle?_updateHandle_self _ found, isIssued_settle (knows_of_mem ht)⟩

theorem startTasks_grows (e : Executor) (label : Option String) (id position : Nat)
    (tasks : List Task) (s : Session) :
    s.Grows (e.startTasks label id position tasks s) (channels label tasks) [] := by
  induction tasks generalizing position s with
  | nil => exact pause_grows s
  | cons t r ih =>
    rw [channels_cons]
    exact ((pause_grows s).trans (e.startTask_grows label id position t _)).trans (ih _ _)

theorem isIssued_startTasks (e : Executor) (label : Option String) {id : Nat} (position : Nat)
    {tasks : List Task} {s : Session} {h : Handle Connection} (found : s.handle? id = some h)
    (known : ∀ t ∈ tasks, t ∈ h.tasks) :
    ∃ h', (e.startTasks label id position tasks s).handle? id = some h' ∧
      ∀ t ∈ tasks, h'.isIssued t.key := by
  induction tasks generalizing position s h with
  | nil =>
    obtain ⟨h', found', -⟩ := (pause_grows s).handles found
    exact ⟨h', found', by simp⟩
  | cons t r ih =>
    obtain ⟨h₁, found₁, paused⟩ := (pause_grows s).handles found
    have member : t ∈ h₁.tasks := paused.tasks ▸ known t (by simp)
    obtain ⟨h₂, found₂, issued⟩ := isIssued_startTask e label position found₁ member
    obtain ⟨_, same, started⟩ := (startTask_grows e label id position t _).handles found₁
    obtain rfl := Option.some.inj (found₂.symm.trans same)
    obtain ⟨h₃, found₃, rest⟩ := ih (position + 1) found₂ fun u hu => by
      rw [started.tasks, paused.tasks]
      exact known u (by simp [hu])
    obtain ⟨_, same, later⟩ := (startTasks_grows e label id (position + 1) r _).handles found₂
    obtain rfl := Option.some.inj (found₃.symm.trans same)
    refine ⟨h₃, found₃, ?_⟩
    intro u hu
    cases List.mem_cons.mp hu with
    | inl first => exact later.issued _ (first ▸ issued)
    | inr others => exact rest u others

theorem exec_dispatch (e : Executor) (label : Option String) (tasks : List Task) (s : Session) :
    ∃ s' h, exec (e.dispatch label tasks) s = (.ok s.handles.length, s') ∧
      s.Grows s' (channels label tasks) [] ∧
      s'.handle? s.handles.length = some h ∧ h.tasks = tasks ∧ h.allIssued := by
  let h₀ : Handle Connection := { tasks }
  let s₀ : Session := { s with handles := s.handles ++ [h₀] }
  let s₁ := e.startTasks label s.handles.length 0 tasks s₀
  let s₂ := if s₁.holds then s₁ else finishAll s₁ fun r => r.handle == s.handles.length
  have added : s.Grows s₀ [] [] := by
    refine ⟨rfl, ⟨[], by simp [s₀], rfl⟩, ⟨[], by simp [s₀], rfl⟩, ?_⟩
    intro id h found
    have bound : id < s.handles.length := (List.getElem?_eq_some_iff.mp found).1
    exact ⟨h, (List.getElem?_append_left bound).trans found, .refl h⟩
  have started : s₀.Grows s₁ (channels label tasks) [] := startTasks_grows e label _ 0 tasks s₀
  have ended : s₁.Grows s₂ [] [] := by
    unfold s₂
    split
    · exact .refl s₁
    · exact finishAll_grows s₁ _
  have found₀ : s₀.handle? s.handles.length = some h₀ := by simp [s₀, handle?]
  obtain ⟨h₁, found₁, issued⟩ := isIssued_startTasks e label 0 found₀ fun t ht => ht
  obtain ⟨_, same, kept⟩ := started.handles found₀
  obtain rfl := Option.some.inj (found₁.symm.trans same)
  obtain ⟨h₂, found₂, kept'⟩ := ended.handles found₁
  refine ⟨s₂, h₂, rfl, ?_, found₂, kept'.tasks.trans kept.tasks, kept'.allIssued ?_⟩
  · simpa using (added.trans started).trans ended
  · rw [Handle.allIssued, kept.tasks]
    exact List.all_eq_true.mpr issued

theorem hangUp_grows (s : Session) (c : Connection) : s.Grows (hangUp s c) [] [] :=
  (pause_grows s).trans (.happen _ c [.close])

theorem exec_close (id : Nat) (s : Session) :
    ∃ s', exec (close id) s = (.ok ⟨⟩, s') ∧ s.Grows s' [] [] := by
  refine ⟨_, rfl, ?_⟩
  dsimp only
  split
  · exact .refl s
  · next h _ =>
    exact List.foldlRecOn (motive := fun s' => s.Grows s' [] []) h.close.2 hangUp
      (.updateHandle s id fun h => .close h) fun _ g c _ => g.trans (hangUp_grows _ c)

theorem exec_join (id : Nat) (s : Session) :
    ∃ rs s', exec (join id) s = (.ok rs, s') ∧ s.Grows s' [] [] :=
  ⟨_, _, rfl, pause_grows s⟩

end Flotilla.Executor
