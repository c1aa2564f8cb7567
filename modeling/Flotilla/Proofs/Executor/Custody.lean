import Flotilla.Proofs.Executor.Barrier
import Flotilla.Proofs.Session.Waning

/-! Custody of connections. One that was used is closed by whoever used it, or else is left with a
handle for as long as its command runs; then the command closes it as it ends, or the handle as it is
given up. So an open connection always has a running command, of a handle that was not given up. -/
namespace Flotilla

/-- A connection has been used and not asked to close. One that could not be opened is not used. -/
def IsOpen (hs : List Happening) (id : Nat) : Prop :=
  (∃ h ∈ hs, h.connection = id ∧ h.event.opens = false) ∧ ¬ IsClosed hs id

instance (hs : List Happening) (id : Nat) : Decidable (IsClosed hs id) :=
  inferInstanceAs (Decidable (∃ h ∈ hs, _))

instance (hs : List Happening) (id : Nat) : Decidable (IsOpen hs id) :=
  inferInstanceAs (Decidable (_ ∧ ¬ IsClosed hs id))

theorem IsOpen.of_append {hs new : List Happening} {id : Nat} (o : IsOpen (hs ++ new) id) :
    IsOpen hs id ∨ IsOpen new id := by
  obtain ⟨⟨h, member, used⟩, unclosed⟩ := o
  rw [List.mem_append] at member
  refine member.imp (fun member => ⟨⟨h, member, used⟩, ?_⟩) fun member => ⟨⟨h, member, used⟩, ?_⟩
  · exact fun closed => unclosed (closed.append new)
  · rintro ⟨x, hx, closed⟩
    exact unclosed ⟨x, List.mem_append_right _ hx, closed⟩

theorem not_isOpen_of_closings {hs : List Happening} (closings : ∀ h ∈ hs, h.event = .close)
    (id : Nat) : ¬ IsOpen hs id := by
  rintro ⟨⟨h, member, same, -⟩, unclosed⟩
  exact unclosed ⟨h, member, same, closings h member⟩

theorem isOpen_exchange {c : Connection} {events : List Host.Event} {id : Nat}
    (o : IsOpen (events.map fun e => ⟨c.id, c.channel, e⟩) id) :
    id = c.id ∧ (∃ e ∈ events, e.opens = false) ∧ .close ∉ events := by
  obtain ⟨⟨h, member, rfl, used⟩, unclosed⟩ := o
  obtain ⟨e, he, rfl⟩ := List.mem_map.mp member
  exact ⟨rfl, ⟨e, he, used⟩, fun closing => unclosed ⟨_, List.mem_map_of_mem closing, rfl, rfl⟩⟩

namespace Session

/-- Every open connection is that of a running command of one of these handles. -/
structure Tended (s : Session) (ids : List Nat) : Prop where
  /-- A running command has left its connection with its handle. -/
  held : ∀ r ∈ s.running, ∃ h, s.handle? r.handle = some h ∧
    h.connections.get? r.task.key = some r.connection
  attended : ∀ {k}, IsOpen s.trace k → ∃ r ∈ s.running, r.connection.id = k ∧ r.handle ∈ ids

namespace Tended
variable {s s' : Session} {ids ids' : List Nat}

theorem mono (tended : s.Tended ids) (more : ∀ i ∈ ids, i ∈ ids') : s.Tended ids' where
  held := tended.held
  attended := fun isOpen =>
    let ⟨r, hr, same, known⟩ := tended.attended isOpen
    ⟨r, hr, same, more _ known⟩

theorem congr (tended : s.Tended ids) (trace : s'.trace = s.trace) (running : s'.running = s.running)
    (handles : s'.handles = s.handles) : s'.Tended ids where
  held := by
    simpa only [running, handle?, handles] using tended.held
  attended := by
    intro k
    simpa only [running, trace] using tended.attended (k := k)

theorem wane (tended : s.Tended ids) (w : s.Wanes s') : s'.Tended ids where
  held := by
    intro r hr
    obtain ⟨h, found, held⟩ := tended.held r (w.running r hr)
    obtain ⟨h', found', same⟩ := w.connections found
    exact ⟨h', found', same ▸ held⟩
  attended := by
    intro k isOpen
    obtain ⟨new, passed, closings⟩ := w.trace
    have before := (passed ▸ isOpen).of_append.resolve_right (not_isOpen_of_closings closings k)
    obtain ⟨r, hr, rfl, known⟩ := tended.attended before
    exact ⟨r, (w.ended r hr).resolve_right isOpen.2, rfl, known⟩

theorem updateHandle (tended : s.Tended ids) (id : Nat)
    {f : Executor.Handle Connection → Executor.Handle Connection}
    (keeps : ∀ h, (f h).connections = h.connections) : (s.updateHandle id f).Tended ids where
  held := by
    intro r hr
    obtain ⟨h, found, held⟩ := tended.held r hr
    rw [handle?_updateHandle, found]
    split
    · exact ⟨f h, rfl, keeps h ▸ held⟩
    · exact ⟨h, rfl, held⟩
  attended := tended.attended

theorem exchange (tended : s.Tended ids) {c : Connection} {events : List Host.Event}
    (closes : ∀ e ∈ events, e.opens = false → .close ∈ events) :
    (s.exchange c events).Tended ids where
  held := tended.held
  attended := by
    intro k isOpen
    refine tended.attended (isOpen.of_append.resolve_right fun during => ?_)
    obtain ⟨-, ⟨e, he, used⟩, unclosed⟩ := isOpen_exchange during
    exact unclosed (closes e he used)

theorem enlist (tended : s.Tended ids) {r : Running} (mine : r.handle ∈ ids)
    {h : Executor.Handle Connection} (found : s.handle? r.handle = some h)
    (fresh : ∀ q ∈ s.running, q.handle = r.handle → q.task.key ≠ r.task.key)
    (events : List Host.Event) :
    ({ s.exchange r.connection events with running := s.running ++ [r] }.updateHandle r.handle
      fun h => (h.markIssued r.task.key (some r.connection)).2).Tended ids where
  held := by
    intro q hq
    change ∃ h, (s.updateHandle r.handle _).handle? q.handle = some h ∧ _
    cases List.mem_append.mp hq with
    | inl before =>
      obtain ⟨h', found', held⟩ := tended.held q before
      rw [handle?_updateHandle, found']
      split
      · next same =>
        refine ⟨_, rfl, ?_⟩
        rw [Executor.Handle.markIssued_connections]
        exact (Table.get?_put _ _ _ _).trans (by rw [if_neg (fresh q before same.symm), held])
      · exact ⟨h', rfl, held⟩
    | inr new =>
      rw [List.mem_singleton.mp new]
      refine ⟨_, handle?_updateHandle_self _ found, ?_⟩
      rw [Executor.Handle.markIssued_connections]
      exact (Table.get?_put _ _ _ _).trans (if_pos rfl)
  attended := by
    intro k isOpen
    cases isOpen.of_append with
    | inl before =>
      obtain ⟨q, hq, same, known⟩ := tended.attended before
      exact ⟨q, List.mem_append_left _ hq, same, known⟩
    | inr during =>
      exact ⟨r, List.mem_append_right _ (List.mem_singleton_self r), (isOpen_exchange during).1.symm,
        mine⟩

end Tended
end Session

namespace Executor
open Session

/-- From one state to a later one, a fan-out has used connections of its own, while others were closed,
and has left none of its own open. -/
structure Settles (label : Option String) (s s' : Session) : Prop where
  trace : ∃ new, s'.trace = s.trace ++ new ∧
    ∀ h ∈ new, h.event = .close ∨ h.channel.label = label
  tended : ∀ {ids}, s.Tended ids → s'.Tended ids

namespace Settles
variable {label : Option String} {s s' s'' : Session}

theorem refl (s : Session) : Settles label s s := ⟨⟨[], by simp, by simp⟩, id⟩

theorem trans (a : Settles label s s') (b : Settles label s' s'') : Settles label s s'' where
  trace := by
    obtain ⟨new, ha, own⟩ := a.trace
    obtain ⟨new', hb, own'⟩ := b.trace
    exact ⟨new ++ new', by rw [hb, ha, List.append_assoc], List.forall_mem_append.mpr ⟨own, own'⟩⟩
  tended := fun tended => b.tended (a.tended tended)

theorem wane (w : s.Wanes s') : Settles label s s' where
  trace := by
    obtain ⟨new, passed, closings⟩ := w.trace
    exact ⟨new, passed, fun h hh => .inl (closings h hh)⟩
  tended := fun tended => tended.wane w

theorem told (s : Session) (rs : List Log.Record) : Settles label s (told s rs) :=
  ⟨⟨[], by simp [Executor.told], by simp⟩, fun tended => tended.congr rfl rfl rfl⟩

end Settles

theorem runTask_settles (e : Executor) (label : Option String) (t : Task) (s : Session) :
    Settles label s (e.runTask label t s).2 := by
  unfold runTask
  cases t.command.read with
  | error f => exact .refl s
  | ok command =>
    have used : Settles label s (s.exchange (s.connection (channel label t))
        (Host.Exchange.complete (s.connection (channel label t)).behaviour e.access command).events) := by
      refine ⟨⟨_, rfl, ?_⟩, fun tended => tended.exchange fun _ => Host.Exchange.closed_complete⟩
      intro h member
      obtain ⟨_, -, rfl⟩ := List.mem_map.mp member
      exact .inr rfl
    dsimp only
    split
    · exact used
    · exact used.trans ⟨⟨[], by simp [note], by simp⟩, fun tended => tended.congr rfl rfl rfl⟩

theorem runTasks_settles (e : Executor) (label : Option String) (tasks : List Task) (rs : Results)
    (s : Session) : Settles label s (e.runTasks label tasks rs s).2 := by
  induction tasks generalizing rs s with
  | nil => exact .wane (pause_wanes s)
  | cons t r ih => exact ((Settles.wane (pause_wanes s)).trans (runTask_settles e label t _)).trans (ih _ _)

theorem execute_settles (e : Executor) (label : Option String) (tasks : List Task) (s : Session) :
    Settles label s (exec (e.execute label tasks) s).2 := by
  obtain ⟨rs, same⟩ := e.execute_told label tasks s
  rw [same]
  exact (runTasks_settles e label tasks .empty s).trans (.told _ rs)

/-- A task that is started leaves its connection closed, or a command running under its key. -/
theorem startTask_tended (e : Executor) (label : Option String) {id : Nat} (position : Nat)
    {t : Task} {ids : List Nat} {s : Session} (tended : s.Tended ids) (mine : id ∈ ids)
    {h : Handle Connection} (found : s.handle? id = some h)
    (fresh : ∀ r ∈ s.running, r.handle = id → r.task.key ≠ t.key) :
    (e.startTask label id position t s).Tended ids ∧
      ∀ r ∈ (e.startTask label id position t s).running,
        r ∈ s.running ∨ r.handle = id ∧ r.task = t := by
  have failed {s : Session} (tended : s.Tended ids) (why : String) :
      ((s.note .task (Log.error s!"{t.key}: failed to issue command: {why}")).updateHandle id
        fun h => (h.markIssueFailed (.failed t why)).2).Tended ids := by
    have noted : (s.note .task (Log.error s!"{t.key}: failed to issue command: {why}")).Tended ids :=
      tended.congr rfl rfl rfl
    exact noted.updateHandle id fun h => h.markIssueFailed_connections _
  unfold startTask
  cases t.command.read with
  | error f => exact ⟨failed tended f.message, fun _ => .inl⟩
  | ok command =>
    dsimp only
    split
    · next why refused =>
      exact ⟨failed (tended.exchange fun _ => Host.Exchange.closed_launch refused) why, fun _ => .inl⟩
    · let c := s.connection (channel label t)
      refine ⟨tended.enlist (r := ⟨id, position, t, label, c⟩) mine found fresh _, fun r hr => ?_⟩
      cases List.mem_append.mp hr with
      | inl before => exact .inl before
      | inr new => exact .inr (List.mem_singleton.mp new ▸ ⟨rfl, rfl⟩)

theorem startTasks_tended (e : Executor) (label : Option String) {id : Nat} (position : Nat)
    {tasks : List Task} (distinct : (tasks.map (·.key)).Nodup) {ids : List Nat} {s : Session}
    (tended : s.Tended ids) (mine : id ∈ ids) {h : Handle Connection} (found : s.handle? id = some h)
    (fresh : ∀ r ∈ s.running, r.handle = id → r.task.key ∉ tasks.map (·.key)) :
    (e.startTasks label id position tasks s).Tended ids := by
  induction tasks generalizing position s h with
  | nil => exact tended.wane (pause_wanes s)
  | cons t r ih =>
    rw [List.map_cons, List.nodup_cons] at distinct
    have paused := pause_wanes s
    obtain ⟨h₁, found₁, -⟩ := paused.connections found
    have free : ∀ q ∈ (pause s).running, q.handle = id → q.task.key ∉ (t :: r).map (·.key) :=
      fun q hq => fresh q (paused.running q hq)
    obtain ⟨started, running⟩ := e.startTask_tended label position (tended.wane paused) mine found₁
      fun q hq same key => free q hq same (key ▸ List.mem_cons_self)
    obtain ⟨h₂, found₂, -⟩ := (e.startTask_grows label id position t (pause s)).handles found₁
    refine ih (position + 1) distinct.2 started found₂ fun q hq same => ?_
    rcases running q hq with before | ⟨-, rfl⟩
    · exact fun later => free q before same (List.mem_cons_of_mem _ later)
    · exact distinct.1

theorem dispatch_tended (e : Executor) (label : Option String) {tasks : List Task}
    (distinct : (tasks.map (·.key)).Nodup) {ids : List Nat} {s : Session} (tended : s.Tended ids) :
    (exec (e.dispatch label tasks) s).2.Tended (s.handles.length :: ids) := by
  let s₀ : Session := { s with handles := s.handles ++ [{ tasks }] }
  let s₁ := e.startTasks label s.handles.length 0 tasks s₀
  have known : ∀ r ∈ s.running, r.handle < s.handles.length := by
    intro r hr
    obtain ⟨h, found, -⟩ := tended.held r hr
    exact (List.getElem?_eq_some_iff.mp found).1
  have added : s₀.Tended (s.handles.length :: ids) := by
    refine ⟨fun r hr => ?_, (tended.mono fun _ => List.mem_cons_of_mem _).attended⟩
    obtain ⟨h, found, held⟩ := tended.held r hr
    exact ⟨h, (List.getElem?_append_left (known r hr)).trans found, held⟩
  have found : s₀.handle? s.handles.length = some { tasks } := List.getElem?_concat_length
  have started : s₁.Tended (s.handles.length :: ids) :=
    e.startTasks_tended label 0 distinct added List.mem_cons_self found
      fun r hr same => absurd same (known r hr).ne
  change (if s₁.holds then s₁ else finishAll s₁ _).Tended _
  split
  · exact started
  · exact started.wane (finishAll_wanes s₁ _)

theorem close_tended {ids ids' : List Nat} {s : Session} (tended : s.Tended ids) (id : Nat)
    (others : ∀ i ∈ ids, i = id ∨ i ∈ ids') : (exec (close id) s).2.Tended ids' := by
  cases found : s.handle? id with
  | none =>
    have kept : (exec (close id) s).2 = s := by
      rw [close, exec_modify, found]
    rw [kept]
    refine ⟨tended.held, fun isOpen => ?_⟩
    obtain ⟨r, hr, same, known⟩ := tended.attended isOpen
    refine ⟨r, hr, same, (others _ known).resolve_left ?_⟩
    rintro rfl
    obtain ⟨h, held, -⟩ := tended.held r hr
    rw [found] at held
    cases held
  | some h =>
    rw [exec_close_of_handle found]
    have given : (s.updateHandle id fun h => h.close.1).Tended ids :=
      tended.updateHandle id fun _ => rfl
    have wanes := hangUps_wanes h.connections.values (s.updateHandle id fun h => h.close.1)
    obtain ⟨new, passed, closings⟩ :=
      trace_hangUps h.connections.values (s.updateHandle id fun h => h.close.1)
    refine ⟨(given.wane wanes).held, fun isOpen => ?_⟩
    obtain ⟨r, hr, rfl, known⟩ := (given.wane wanes).attended isOpen
    refine ⟨r, hr, rfl, (others _ known).resolve_left ?_⟩
    rintro rfl
    -- The connection of a command of this handle is among those that were hung up.
    obtain ⟨h', found', held⟩ := tended.held r (wanes.running r hr)
    obtain rfl := Option.some.inj (found.symm.trans found')
    have member : r.connection ∈ h.connections.values :=
      List.mem_map_of_mem ((Table.get?_eq_some_iff _).mp held)
    refine isOpen.2 ⟨r.connection.closing, ?_, rfl, rfl⟩
    rw [passed]
    exact List.mem_append_right _ (closings.subset (List.mem_map_of_mem member))

end Executor
end Flotilla
