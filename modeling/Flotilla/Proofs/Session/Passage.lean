import Flotilla.Proofs.Executor.Barrier
import Flotilla.Proofs.Session.Setting

/-! What passes over the connections that are opened from some moment on. Commands that were started
before may end at any time and close theirs, so connections are told apart by their numbers; of those
with later numbers, each is used up before the next one is opened. -/
namespace Flotilla

/-- Every answer of a host has a text of complaints, even if an empty one. -/
def Host.Script.Speaks (hosts : Script) : Prop := ∀ c, (hosts.behaviour c).answer.stderr.isSome

/-- It is enough that no rule keeps the text back: without a rule, a host has nothing to complain of. -/
theorem Host.Script.speaks_of_rules {hosts : Script}
    (h : ∀ r ∈ hosts, r.behaviour.answer.stderr.isSome) : hosts.Speaks := by
  intro c
  unfold behaviour
  split
  · next r found => exact h r (List.mem_of_find?_eq_some found)
  · rfl

/-- What passed over one connection: the channel it is for, and its events in order. -/
structure Passage where
  channel : Host.Channel
  events : List Host.Event
  deriving DecidableEq, Repr

namespace Passage

/-- The events of passages, over connections that are numbered from the given number on. -/
def happenings : Nat → List Passage → List Happening
  | _, [] => []
  | id, x :: r => (x.events.map fun e => ⟨id, x.channel, e⟩) ++ happenings (id + 1) r

theorem happenings_append (id : Nat) (xs ys : List Passage) :
    happenings id (xs ++ ys) = happenings id xs ++ happenings (id + xs.length) ys := by
  induction xs generalizing id with
  | nil => rfl
  | cons x r ih =>
    rw [List.cons_append, happenings, happenings, ih, List.append_assoc, List.length_cons,
      Nat.add_right_comm, Nat.add_assoc]

theorem happenings_singleton (id : Nat) (x : Passage) :
    happenings id [x] = x.events.map fun e => ⟨id, x.channel, e⟩ := by
  rw [happenings, happenings, List.append_nil]

theorem mem_happenings {id : Nat} {xs : List Passage} {h : Happening} (member : h ∈ happenings id xs) :
    ∃ x ∈ xs, h.channel = x.channel ∧ h.event ∈ x.events ∧
      ∀ e ∈ x.events, ⟨h.connection, x.channel, e⟩ ∈ happenings id xs := by
  induction xs generalizing id with
  | nil => cases member
  | cons x r ih =>
    rw [happenings, List.mem_append] at member
    cases member with
    | inl first =>
      obtain ⟨e, he, rfl⟩ := List.mem_map.mp first
      exact ⟨x, by simp, rfl, he, fun e he => List.mem_append_left _ (List.mem_map_of_mem he)⟩
    | inr later =>
      obtain ⟨y, hy, channel, event, all⟩ := ih later
      exact ⟨y, List.mem_cons_of_mem _ hy, channel, event,
        fun e he => List.mem_append_right _ (all e he)⟩

theorem connection_lt {id : Nat} {xs : List Passage} {h : Happening}
    (member : h ∈ happenings id xs) : h.connection < id + xs.length := by
  induction xs generalizing id with
  | nil => cases member
  | cons x r ih =>
    rw [happenings, List.mem_append] at member
    rw [List.length_cons]
    cases member with
    | inl first =>
      obtain ⟨e, -, rfl⟩ := List.mem_map.mp first
      exact Nat.lt_add_of_pos_right (Nat.succ_pos _)
    | inr later =>
      have bound := ih later
      omega

end Passage

namespace Session

def since (base : Nat) (s : Session) : List Happening := s.trace.filter (base ≤ ·.connection)

/-- Connections are counted: all that have been used have lower numbers than the next. -/
structure Counted (s : Session) : Prop where
  trace : ∀ h ∈ s.trace, h.connection < s.opened
  running : ∀ r ∈ s.running, r.connection.id < s.opened

theorem counted_new (hosts : Host.Script) (disk : Files.Disk) (process : String) :
    (new hosts disk process).Counted := ⟨List.forall_mem_nil _, List.forall_mem_nil _⟩

/-- What runs uses only connections from before a number. -/
structure After (base : Nat) (s : Session) : Prop where
  opened : base ≤ s.opened
  running : ∀ r ∈ s.running, r.connection.id < base

theorem Counted.after {s : Session} (h : s.Counted) : s.After s.opened := ⟨Nat.le_refl _, h.running⟩

theorem Counted.since_eq_nil {s : Session} (h : s.Counted) : s.since s.opened = [] := by
  rw [since, List.filter_eq_nil_iff]
  intro x hx
  simpa using h.trace x hx

/-- From one state to a later one, passages have been added over new connections, in this order. -/
structure Passes (base : Nat) (s s' : Session) (xs : List Passage) : Prop where
  steady : s.Steady s'
  after : s'.After base
  opened : s'.opened = s.opened + xs.length
  since : s'.since base = s.since base ++ Passage.happenings s.opened xs

namespace Passes
variable {base : Nat} {s s' s'' : Session}

theorem refl (after : s.After base) : Passes base s s [] :=
  ⟨.refl s, after, rfl, (List.append_nil _).symm⟩

theorem trans {xs ys : List Passage} (a : Passes base s s' xs) (b : Passes base s' s'' ys) :
    Passes base s s'' (xs ++ ys) where
  steady := a.steady.trans b.steady
  after := b.after
  opened := by rw [b.opened, a.opened, List.length_append, Nat.add_assoc]
  since := by rw [b.since, a.since, a.opened, Passage.happenings_append, List.append_assoc]

theorem trans_nil {xs : List Passage} (a : Passes base s s' xs) (b : Passes base s' s'' []) :
    Passes base s s'' xs := List.append_nil xs ▸ a.trans b

theorem note (after : s.After base) (who : Speaker) (r : Log.Record) :
    Passes base s (s.note who r) [] :=
  ⟨note_steady s who r, ⟨after.opened, after.running⟩, rfl, (List.append_nil _).symm⟩

theorem exchange (after : s.After base) (c : Host.Channel) (events : List Host.Event) :
    Passes base s (s.exchange (s.connection c) events) [⟨c, events⟩] where
  steady := exchange_steady s _ _
  after := ⟨Nat.le_succ_of_le after.opened, after.running⟩
  opened := rfl
  since := by
    have new : (events.map fun e => (⟨s.opened, c, e⟩ : Happening)).filter (base ≤ ·.connection) =
        events.map fun e => ⟨s.opened, c, e⟩ :=
      List.filter_eq_self.mpr (by simp [after.opened])
    rw [Passage.happenings_singleton, Session.since, Session.since]
    change (s.trace ++ events.map fun e => (⟨s.opened, c, e⟩ : Happening)).filter _ = _
    rw [List.filter_append, new]

theorem counted {xs : List Passage} (passes : Passes base s s' xs) (h : s.Counted) :
    s'.Counted where
  trace := by
    intro e he
    rw [passes.opened]
    by_cases late : base ≤ e.connection
    · have added : e ∈ s'.since base := List.mem_filter.mpr ⟨he, by simpa using late⟩
      rw [passes.since, List.mem_append] at added
      cases added with
      | inl before => exact Nat.lt_add_right _ (h.trace e (List.mem_filter.mp before).1)
      | inr during => exact Passage.connection_lt during
    · have bound := passes.after.opened
      rw [passes.opened] at bound
      omega
  running := fun r hr => Nat.lt_of_lt_of_le (passes.after.running r hr) passes.after.opened

end Passes
end Session

namespace Executor
open Session
variable {base : Nat}

theorem finish_passes {s : Session} (after : s.After base) {r : Running} (old : r.connection.id < base) :
    Passes base s (finish s r) [] where
  steady := finish_steady s r
  after := ⟨after.opened, fun r' hr => after.running r' (List.mem_filter.mp hr).1⟩
  opened := rfl
  since := by
    rw [Session.since, Session.since]
    change (s.trace ++ [(⟨r.connection.id, r.connection.channel, .close⟩ : Happening)]).filter _ = _
    simp [old, Passage.happenings]

theorem finishAll_passes {s : Session} (after : s.After base) (which : Running → Bool) :
    Passes base s (finishAll s which) [] :=
  List.foldlRecOn (motive := fun s' => Passes base s s' []) _ finish (.refl after)
    fun _ passes r hr =>
      passes.trans (finish_passes passes.after (after.running r (List.mem_filter.mp hr).1))

theorem pause_passes {s : Session} (after : s.After base) : Passes base s (pause s) [] := by
  cases more : s.meanwhile with
  | nil =>
    rw [pause, more]
    exact .refl after
  | cons which later =>
    have ended := finishAll_passes (s := { s with meanwhile := later }) ⟨after.opened, after.running⟩
      which
    have same : pause s = finishAll { s with meanwhile := later } which := by rw [pause, more]
    exact ⟨pause_steady s, same ▸ ended.after, same ▸ ended.opened, same ▸ ended.since⟩

def passage? (e : Executor) (hosts : Host.Script) (label : Option String) (t : Task) :
    Option Passage :=
  match t.command.read with
  | .ok command => some ⟨channel label t,
      (Host.Exchange.complete (hosts.behaviour (channel label t)) e.access command).events⟩
  | .error _ => none

def passages (e : Executor) (hosts : Host.Script) (label : Option String) (tasks : List Task) :
    List Passage := tasks.filterMap (e.passage? hosts label)

theorem runTask_passes (e : Executor) (label : Option String) (t : Task) {s : Session}
    (after : s.After base) :
    Passes base s (e.runTask label t s).2 (e.passage? s.hosts label t).toList := by
  unfold runTask passage?
  cases t.command.read with
  | error f => exact .refl after
  | ok command =>
    have used := Passes.exchange after (channel label t)
      (Host.Exchange.complete (s.hosts.behaviour (channel label t)) e.access command).events
    dsimp only [connection] at used ⊢
    split
    · exact used
    · exact used.trans (.note used.after .task _)

theorem runTasks_passes (e : Executor) (label : Option String) (tasks : List Task) (rs : Results)
    {s : Session} (after : s.After base) :
    Passes base s (e.runTasks label tasks rs s).2 (e.passages s.hosts label tasks) := by
  induction tasks generalizing rs s with
  | nil => exact pause_passes after
  | cons t r ih =>
    have first := (pause_passes after).trans (runTask_passes e label t (pause_passes after).after)
    have rest : Passes base s (e.runTasks label (t :: r) rs s).2 _ :=
      first.trans (ih _ first.after)
    rw [first.steady.hosts, (pause_steady s).hosts, List.nil_append] at rest
    cases given : e.passage? s.hosts label t <;> simpa [passages, given] using rest

theorem told_steady (s : Session) (rs : List Log.Record) : s.Steady (told s rs) :=
  ⟨rfl, rfl, rfl, id, rfl⟩

theorem told_passes {s : Session} (after : s.After base) (rs : List Log.Record) :
    Passes base s (told s rs) [] :=
  ⟨told_steady s rs, ⟨after.opened, after.running⟩, rfl, (List.append_nil _).symm⟩

def results (e : Executor) (hosts : Host.Script) (label : Option String) (tasks : List Task) :
    Results := tasks.foldl (fun rs t => rs.put t.key (e.result hosts label t)) .empty

theorem get?_results_of_mem {e : Executor} {hosts : Host.Script} {label : Option String}
    {tasks : List Task} (distinct : (tasks.map (·.key)).Nodup) {t : Task} (h : t ∈ tasks) :
    (e.results hosts label tasks).get? t.key = some (e.result hosts label t) :=
  Table.get?_foldl_put_of_mem Task.key (e.result hosts label) .empty distinct h

theorem get?_results_of_notMem {e : Executor} {hosts : Host.Script} {label : Option String}
    {tasks : List Task} {key : String} (h : key ∉ tasks.map (·.key)) :
    (e.results hosts label tasks).get? key = none :=
  Table.get?_foldl_put_of_notMem Task.key (e.result hosts label) tasks .empty h

theorem not_isMute_of_speaks {hosts : Host.Script} (speaks : hosts.Speaks) (e : Executor)
    (label : Option String) (t : Task) : ¬ (e.result hosts label t).isMute := by
  rw [isMute_result_iff]
  rintro ⟨a, answered, -, silent⟩
  unfold outcome at answered
  split at answered
  · have said := speaks (channel label t)
    rw [← Host.Exchange.answer_of_complete answered, silent] at said
    cases said
  · cases answered

theorem exec_execute_of_speaks (e : Executor) (label : Option String) {tasks : List Task}
    (distinct : (tasks.map (·.key)).Nodup) (proper : ∀ t ∈ tasks, t.isProper) {s : Session}
    (speaks : s.hosts.Speaks) :
    ∃ s', exec (e.execute label tasks) s = (.ok (e.results s.hosts label tasks), s') ∧
      s.Steady s' ∧
      ∀ {base}, s.After base → Passes base s s' (e.passages s.hosts label tasks) := by
  have entered := runTasks_fst e label proper .empty s
  have steady := runTasks_steady e label tasks .empty s
  have ran {base : Nat} (after : s.After base) := runTasks_passes e label tasks .empty after
  rcases taken : e.runTasks label tasks .empty s with ⟨rs, s₁⟩
  rw [taken] at entered steady
  simp only [taken] at ran
  dsimp only at entered steady
  have found : ∀ t ∈ tasks, rs.get? t.key = some (e.result s.hosts label t) := by
    intro t ht
    rw [entered]
    exact Table.get?_foldl_put_of_mem Task.key (e.result s.hosts label) _ distinct ht
  have ended : exec (e.execute label tasks) s = (.ok (e.results s.hosts label tasks),
      told s₁ ((tasks.takeWhile fun t => !(e.result s.hosts label t).isMute).flatMap fun t =>
        complaints t (e.result s.hosts label t))) := by
    rw [execute, exec_bind, exec_get]
    simp only [taken, exec_bind, exec_set, exec_logResults found]
    rw [if_pos fun t _ => not_isMute_of_speaks speaks e label t, entered]
    rfl
  exact ⟨_, ended, steady.trans (told_steady s₁ _), fun after => by
    simpa using (ran after).trans (told_passes (ran after).after _)⟩

end Executor
end Flotilla
