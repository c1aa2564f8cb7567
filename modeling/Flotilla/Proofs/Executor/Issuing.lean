import Flotilla.Proofs.Executor.Supervision
import Flotilla.Proofs.Executor.Threads

/-! The threads of a fan-out that is not waited for. There is one for each task, and they take turns in
any order while started commands end when they like. Each opens a connection of its own, passes its
events one at a time, and then tells the handle what has come of its task: that it was issued, or why it
could not be. Nothing keeps it from getting there, so nothing keeps the caller waiting. -/
namespace Flotilla.Executor.Issuing
open Session

/-- How far a thread is with its task. -/
inductive Stand
  | due
  /-- What is still to pass over its connection, and what comes of it then. -/
  | busy (c : Connection) (ahead : List Host.Event) (came : Except String Unit)
  /-- The handle is still to be told why. -/
  | failed (why : String)
  | refused
  | issued

namespace Stand

def begun (e : Executor) (label : Option String) (t : Task) (command : Command) (s : Session) : Stand :=
  let c := s.connection (channel label t)
  let x := Host.Exchange.launch c.behaviour e.access command
  .busy c x.events x.outcome

/-- The handle knows of the task, and the caller need not wait for it any more. -/
def isOver : Stand → Bool
  | refused | issued => true
  | _ => false

def isRefused : Stand → Bool
  | refused => true
  | _ => false

end Stand

structure Thread where
  task : Task
  stand : Stand

structure Crew where
  threads : List Thread
  session : Session

def complain (s : Session) (t : Task) (why : String) : Session :=
  s.note .task (Log.error s!"{t.key}: failed to issue command: {why}")

def giveUp (id : Nat) (s : Session) (t : Task) (why : String) : Session :=
  s.updateHandle id fun h => (h.markIssueFailed (.failed t why)).2

def handOver (s : Session) (q : Running) : Session :=
  Session.updateHandle { s with running := s.running ++ [q] } q.handle
    fun h => (h.markIssued q.task.key (some q.connection)).2

/-- A turn of one thread, the others standing still, or time that passes. -/
inductive Turn (e : Executor) (label : Option String) (id : Nat) : Crew → Crew → Prop
  | pause (ts : List Thread) (s : Session) : Turn e label id ⟨ts, s⟩ ⟨ts, pause s⟩
  /-- Some of the commands that run end, also of those that were just issued. -/
  | ended (which : Running → Bool) (ts : List Thread) (s : Session) :
      Turn e label id ⟨ts, s⟩ ⟨ts, finishAll s which⟩
  | fails {t : Task} {f : Fault} (improper : t.command.read = .error f) (before after : List Thread)
      (s : Session) :
      Turn e label id ⟨before ++ ⟨t, .due⟩ :: after, s⟩
        ⟨before ++ ⟨t, .failed f.message⟩ :: after, complain s t f.message⟩
  | starts {t : Task} {command : Command} (read : t.command.read = .ok command)
      (before after : List Thread) (s : Session) :
      Turn e label id ⟨before ++ ⟨t, .due⟩ :: after, s⟩
        ⟨before ++ ⟨t, .begun e label t command s⟩ :: after, { s with opened := s.opened + 1 }⟩
  | passes (t : Task) (c : Connection) (event : Host.Event) (ahead : List Host.Event)
      (came : Except String Unit) (before after : List Thread) (s : Session) :
      Turn e label id ⟨before ++ ⟨t, .busy c (event :: ahead) came⟩ :: after, s⟩
        ⟨before ++ ⟨t, .busy c ahead came⟩ :: after, s.happen c [event]⟩
  | breaks (t : Task) (c : Connection) (why : String) (before after : List Thread) (s : Session) :
      Turn e label id ⟨before ++ ⟨t, .busy c [] (.error why)⟩ :: after, s⟩
        ⟨before ++ ⟨t, .failed why⟩ :: after, complain s t why⟩
  | givesUp (t : Task) (why : String) (before after : List Thread) (s : Session) :
      Turn e label id ⟨before ++ ⟨t, .failed why⟩ :: after, s⟩
        ⟨before ++ ⟨t, .refused⟩ :: after, giveUp id s t why⟩
  | handsOver (t : Task) (c : Connection) (before after : List Thread) (s : Session) :
      Turn e label id ⟨before ++ ⟨t, .busy c [] (.ok ⟨⟩)⟩ :: after, s⟩
        ⟨before ++ ⟨t, .issued⟩ :: after, handOver s ⟨id, before.length, t, label, c⟩⟩

/-- Any number of turns. -/
abbrev Turns (e : Executor) (label : Option String) (id : Nat) : Crew → Crew → Prop :=
  Relation.ReflTransGen (Turn e label id)

def crew (tasks : List Task) (s : Session) : Crew :=
  ⟨tasks.map (⟨·, .due⟩), { s with handles := s.handles ++ [{ tasks }] }⟩

/-- Every thread has told the handle of its task, which is what the caller waits for. -/
def Crew.IsOver (k : Crew) : Prop := ∀ th ∈ k.threads, th.stand.isOver

section
variable (e : Executor) (label : Option String) (id : Nat)

theorem failed_turns (t : Task) (why : String) (before after : List Thread) (s : Session) :
    Turns e label id ⟨before ++ ⟨t, .failed why⟩ :: after, s⟩
      ⟨before ++ ⟨t, .refused⟩ :: after, giveUp id s t why⟩ :=
  .single (.givesUp t why before after s)

def settle (position : Nat) (s : Session) (t : Task) (c : Connection) : Except String Unit → Session
  | .error why => giveUp id (complain s t why) t why
  | .ok _ => handOver s ⟨id, position, t, label, c⟩

def Stand.settled : Except String Unit → Stand
  | .error _ => .refused
  | .ok _ => .issued

theorem Stand.isOver_settled (came : Except String Unit) : (settled came).isOver := by
  cases came <;> rfl

theorem busy_turns (t : Task) (c : Connection) (ahead : List Host.Event) (came : Except String Unit)
    (before after : List Thread) (s : Session) :
    Turns e label id ⟨before ++ ⟨t, .busy c ahead came⟩ :: after, s⟩
      ⟨before ++ ⟨t, .settled came⟩ :: after,
        settle label id before.length (s.happen c ahead) t c came⟩ := by
  induction ahead generalizing s with
  | nil =>
    rw [happen_nil]
    cases came with
    | error why => exact .head (.breaks t c why before after s) (failed_turns e label id t why _ _ _)
    | ok _ => exact .single (.handsOver t c before after s)
  | cons event ahead ih =>
    rw [happen_cons]
    exact .head (.passes t c event ahead came before after s) (ih _)

theorem startTask_turns (t : Task) (before after : List Thread) (s : Session) :
    ∃ stand : Stand, stand.isOver ∧ Turns e label id ⟨before ++ ⟨t, .due⟩ :: after, s⟩
      ⟨before ++ ⟨t, stand⟩ :: after, e.startTask label id before.length t s⟩ := by
  unfold startTask
  cases read : t.command.read with
  | error f =>
    exact ⟨.refused, rfl, .head (.fails read before after s) (failed_turns e label id t _ _ _ _)⟩
  | ok command =>
    have started : Turn e label id _ _ := .starts read before after s
    have ran := Relation.ReflTransGen.head started (busy_turns e label id t _ _ _ before after _)
    dsimp only
    split <;> next came =>
      rw [came] at ran
      exact ⟨_, rfl, ran⟩

theorem startTasks_turns (tasks : List Task) (before : List Thread) (s : Session) :
    ∃ ts : List Thread, (∀ th ∈ ts, th.stand.isOver) ∧
      Turns e label id ⟨before ++ tasks.map (⟨·, .due⟩), s⟩
        ⟨before ++ ts, e.startTasks label id before.length tasks s⟩ := by
  -- The threads in `before` are over when the next one takes its turns.
  induction tasks generalizing before s with
  | nil => exact ⟨[], by simp, .single (.pause _ s)⟩
  | cons t r ih =>
    obtain ⟨stand, finished, first⟩ :=
      startTask_turns e label id t before (r.map (⟨·, .due⟩)) (Executor.pause s)
    obtain ⟨ts, others, rest⟩ :=
      ih (before ++ [⟨t, stand⟩]) (e.startTask label id before.length t (Executor.pause s))
    simp only [List.append_assoc, List.singleton_append, List.length_append, List.length_singleton]
      at rest
    exact ⟨⟨t, stand⟩ :: ts, List.forall_mem_cons.mpr ⟨finished, others⟩,
      .head (.pause _ s) (first.trans rest)⟩

/-- That the caller gets the handle after one thread has followed the other is one way of many. -/
theorem turns_dispatch (tasks : List Task) (s : Session) :
    ∃ k, Turns e label s.handles.length (crew tasks s) k ∧ k.IsOver ∧
      exec (e.dispatch label tasks) s = (.ok s.handles.length, k.session) := by
  obtain ⟨ts, finished, taken⟩ :=
    startTasks_turns e label s.handles.length tasks [] (crew tasks s).session
  refine ⟨⟨ts, (exec (e.dispatch label tasks) s).2⟩, ?_, finished, rfl⟩
  rw [dispatch_snd]
  dsimp only
  split
  · exact taken
  · exact taken.tail (.ended _ _ _)

theorem over_turns (th : Thread) (before after : List Thread) (s : Session) :
    ∃ stand s', stand.isOver ∧ Turns e label id ⟨before ++ th :: after, s⟩
      ⟨before ++ ⟨th.task, stand⟩ :: after, s'⟩ := by
  obtain ⟨t, stand⟩ := th
  cases stand with
  | due =>
    obtain ⟨stand, finished, taken⟩ := startTask_turns e label id t before after s
    exact ⟨stand, _, finished, taken⟩
  | busy c ahead came =>
    exact ⟨_, _, Stand.isOver_settled came, busy_turns e label id t c ahead came before after s⟩
  | failed why => exact ⟨.refused, _, rfl, failed_turns e label id t why before after s⟩
  | refused => exact ⟨.refused, s, rfl, .refl⟩
  | issued => exact ⟨.issued, s, rfl, .refl⟩

/-- No thread waits for another, nor for a command to end. -/
theorem turns_to_over (k : Crew) : ∃ k', Turns e label id k k' ∧ k'.IsOver := by
  have all (ts before : List Thread) (s : Session) : ∃ ts' : List Thread, ∃ s',
      (∀ th ∈ ts', th.stand.isOver) ∧
        Turns e label id ⟨before ++ ts, s⟩ ⟨before ++ ts', s'⟩ := by
    induction ts generalizing before s with
    | nil => exact ⟨[], s, by simp, .refl⟩
    | cons th ts ih =>
      obtain ⟨stand, s₁, finished, first⟩ := over_turns e label id th before ts s
      obtain ⟨ts', s₂, others, rest⟩ := ih (before ++ [⟨th.task, stand⟩]) s₁
      simp only [List.append_assoc, List.singleton_append] at rest
      exact ⟨_ :: ts', s₂, List.forall_mem_cons.mpr ⟨finished, others⟩, first.trans rest⟩
  obtain ⟨ts', s', finished, taken⟩ := all k.threads [] k.session
  exact ⟨⟨ts', s'⟩, taken, finished⟩

end

/-- A thread by itself: as long as the handle does not know of its task it has nothing for it, and from
then on it has a promise. -/
def Thread.Stands (e : Executor) (label : Option String) (id : Nat) (hosts : Host.Script) (s : Session)
    (th : Thread) : Prop :=
  match th.stand with
  | .due => Fresh id th.task.key s
  | .busy c _ came => Fresh id th.task.key s ∧ c.channel = channel label th.task ∧
      c.behaviour = hosts.behaviour (channel label th.task) ∧
      ∀ why, came = .error why ↔ e.refusal? hosts label th.task = some why
  | .failed why => Fresh id th.task.key s ∧ e.refusal? hosts label th.task = some why
  | .refused => (e.refusal? hosts label th.task).isSome ∧
      Promises id th.task.key (e.final hosts label th.task) False s
  | .issued => e.refusal? hosts label th.task = none ∧
      Promises id th.task.key (e.final hosts label th.task) True s

theorem Thread.Stands.elapse {e : Executor} {label : Option String} {id : Nat} {hosts : Host.Script}
    {s s' : Session} {th : Thread} (h : th.Stands e label id hosts s)
    (w : Elapses id th.task.key s s') : th.Stands e label id hosts s' := by
  obtain ⟨t, stand⟩ := th
  cases stand with
  | due => exact Fresh.elapse h w
  | busy c ahead came => exact ⟨h.1.elapse w, h.2⟩
  | failed why => exact ⟨h.1.elapse w, h.2⟩
  | refused => exact ⟨h.1, h.2.elapse w⟩
  | issued => exact ⟨h.1, h.2.elapse w⟩

/-- What a handle knows of the threads. -/
structure Ledger (ts : List Thread) (h : Handle Connection) : Prop where
  tasks : h.tasks = ts.map (·.task)
  issued : ∀ th ∈ ts, h.isIssued th.task.key ↔ th.stand.isOver
  refused : h.issueFailures.Perm ((ts.filter (·.stand.isRefused)).map (·.task.key))

def Apart (ts : List Thread) : Prop := (ts.map (·.task.key)).Nodup

theorem Apart.key_ne {before after : List Thread} {th x : Thread} (apart : Apart (before ++ th :: after))
    (other : x ∈ before ++ after) : x.task.key ≠ th.task.key :=
  key_ne_of_turned (fun th : Thread => th.task.key) apart other

namespace Ledger
variable {before after : List Thread} {t : Task} {stand stand' : Stand} {h h' : Handle Connection}

theorem still (known : Ledger (before ++ ⟨t, stand⟩ :: after) h) (finished : stand'.isOver = stand.isOver)
    (refused : stand'.isRefused = stand.isRefused) : Ledger (before ++ ⟨t, stand'⟩ :: after) h where
  tasks := by simpa using known.tasks
  issued := by
    intro x member
    rcases mem_turned.mp member with rfl | other
    · rw [finished]
      exact known.issued ⟨t, stand⟩ (mem_turned.mpr (.inl rfl))
    · exact known.issued x (mem_turned.mpr (.inr other))
  refused := by
    have same := known.refused
    rw [List.filter_append, List.filter_cons] at same ⊢
    dsimp only at same ⊢
    rw [refused]
    split at same <;> simp_all

theorem tell (apart : Apart (before ++ ⟨t, stand⟩ :: after))
    (known : Ledger (before ++ ⟨t, stand⟩ :: after) h) (new : stand.isRefused = false)
    (finished : stand'.isOver) (tasks : h'.tasks = h.tasks)
    (issued : ∀ key, h.knows key → (h'.isIssued key ↔ h.isIssued key ∨ key = t.key))
    (refused : h'.issueFailures = if stand'.isRefused then t.key :: h.issueFailures
      else h.issueFailures) : Ledger (before ++ ⟨t, stand'⟩ :: after) h' where
  tasks := by
    rw [tasks, known.tasks]
    simp
  issued := by
    intro x member
    have listed : x.task ∈ h.tasks := by
      rw [known.tasks]
      rcases mem_turned.mp member with rfl | other
      · simp
      · exact List.mem_map_of_mem (mem_turned.mpr (.inr other))
    rw [issued _ (knows_of_mem listed)]
    rcases mem_turned.mp member with rfl | other
    · exact iff_of_true (.inr rfl) finished
    · rw [known.issued x (mem_turned.mpr (.inr other))]
      exact or_iff_left (apart.key_ne other)
  refused := by
    have before' := known.refused
    rw [List.filter_append, List.filter_cons, if_neg (by simp [new])] at before'
    rw [refused, List.filter_append, List.filter_cons]
    dsimp only
    split
    · rw [List.map_append, List.map_cons]
      rw [List.map_append] at before'
      exact (before'.cons t.key).trans List.perm_middle.symm
    · exact before'

end Ledger

theorem handle?_finishAll {id : Nat} {s : Session} {h : Handle Connection}
    (found : s.handle? id = some h) (which : Running → Bool) :
    ∃ results, (finishAll s which).handle? id = some { h with results } := by
  refine List.foldlRecOn (motive := fun s' : Session => ∃ results, s'.handle? id = some { h with results })
    _ finish ⟨h.results, found⟩ ?_
  rintro s' ⟨results, found'⟩ r -
  change ∃ results, (s'.updateHandle r.handle _).handle? id = _
  rw [handle?_updateHandle, found']
  split
  · exact ⟨_, rfl⟩
  · exact ⟨results, rfl⟩

theorem handle?_pause {id : Nat} {s : Session} {h : Handle Connection} (found : s.handle? id = some h) :
    ∃ results, (pause s).handle? id = some { h with results } := by
  unfold pause
  split
  · exact ⟨h.results, found⟩
  · next which later _ => exact handle?_finishAll (s := { s with meanwhile := later }) found which

structure Accounts (e : Executor) (label : Option String) (tasks : List Task) (s : Session)
    (k : Crew) : Prop where
  hosts : k.session.hosts = s.hosts
  given : k.threads.map (·.task) = tasks
  threads : ∀ th ∈ k.threads, th.Stands e label s.handles.length s.hosts k.session
  ledger : ∃ h, k.session.handle? s.handles.length = some h ∧ Ledger k.threads h

namespace Accounts
variable {e : Executor} {label : Option String} {tasks : List Task} {s s₁ s₂ : Session}

theorem crew (unused : ∀ r ∈ s.running, r.handle ≠ s.handles.length) :
    Accounts e label tasks s (crew tasks s) where
  hosts := rfl
  given := by simp [Issuing.crew, Function.comp_def]
  threads := by
    intro th member
    obtain ⟨t, -, rfl⟩ := List.mem_map.mp member
    refine ⟨⟨{ tasks }, List.getElem?_concat_length, rfl⟩, ?_⟩
    rintro ⟨r, runs, mine, -⟩
    exact unused r runs mine
  ledger := by
    refine ⟨{ tasks }, List.getElem?_concat_length, ?_, ?_, ?_⟩
    · simp [Issuing.crew, Function.comp_def]
    · intro th member
      obtain ⟨t, -, rfl⟩ := List.mem_map.mp member
      simp [Handle.isIssued, Stand.isOver]
    · have none : (tasks.map fun t => (⟨t, .due⟩ : Thread)).filter (·.stand.isRefused) = [] := by
        simp [Stand.isRefused]
      rw [Issuing.crew, none]
      exact .refl _

theorem apart {k : Crew} (distinct : (tasks.map (·.key)).Nodup) (a : Accounts e label tasks s k) :
    Apart k.threads := by
  rw [← a.given, List.map_map] at distinct
  exact distinct

theorem wait {ts : List Thread} (a : Accounts e label tasks s ⟨ts, s₁⟩) (hosts : s₂.hosts = s₁.hosts)
    (elapses : ∀ key, Elapses s.handles.length key s₁ s₂)
    (handle : ∀ h, s₁.handle? s.handles.length = some h →
      ∃ results, s₂.handle? s.handles.length = some { h with results }) :
    Accounts e label tasks s ⟨ts, s₂⟩ where
  hosts := hosts.trans a.hosts
  given := a.given
  threads := fun th member => (a.threads th member).elapse (elapses _)
  ledger := by
    obtain ⟨h, found, known⟩ := a.ledger
    obtain ⟨results, found'⟩ := handle h found
    exact ⟨_, found', known.tasks, known.issued, known.refused⟩

/-- A thread takes a turn, and leaves alone what belongs to the others. -/
theorem turn {t : Task} {stand stand' : Stand} {before after : List Thread}
    (distinct : (tasks.map (·.key)).Nodup)
    (a : Accounts e label tasks s ⟨before ++ ⟨t, stand⟩ :: after, s₁⟩) (hosts : s₂.hosts = s₁.hosts)
    (others : ∀ key ≠ t.key, Elapses s.handles.length key s₁ s₂)
    (mine : Thread.Stands e label s.handles.length s.hosts s₂ ⟨t, stand'⟩)
    (ledger : ∀ h, s₁.handle? s.handles.length = some h →
      Ledger (before ++ ⟨t, stand⟩ :: after) h →
      ∃ h', s₂.handle? s.handles.length = some h' ∧ Ledger (before ++ ⟨t, stand'⟩ :: after) h') :
    Accounts e label tasks s ⟨before ++ ⟨t, stand'⟩ :: after, s₂⟩ where
  hosts := hosts.trans a.hosts
  given := by
    rw [← a.given]
    simp
  threads := by
    intro x member
    rcases mem_turned.mp member with rfl | other
    · exact mine
    · have theirs := a.threads x (mem_turned.mpr (.inr other))
      exact theirs.elapse (others _ ((a.apart distinct).key_ne other))
  ledger := by
    obtain ⟨h, found, known⟩ := a.ledger
    exact ledger h found known

theorem move {t : Task} {stand stand' : Stand} {before after : List Thread}
    (distinct : (tasks.map (·.key)).Nodup)
    (a : Accounts e label tasks s ⟨before ++ ⟨t, stand⟩ :: after, s₁⟩) (hosts : s₂.hosts = s₁.hosts)
    (handles : s₂.handles = s₁.handles) (running : s₂.running = s₁.running)
    (mine : Thread.Stands e label s.handles.length s.hosts s₂ ⟨t, stand'⟩)
    (finished : stand'.isOver = stand.isOver) (refused : stand'.isRefused = stand.isRefused) :
    Accounts e label tasks s ⟨before ++ ⟨t, stand'⟩ :: after, s₂⟩ := by
  refine a.turn distinct hosts (fun _ _ => .of_eq handles running) mine fun h found known => ?_
  exact ⟨h, (congrArg (·[s.handles.length]?) handles).trans found, known.still finished refused⟩

theorem step {k k' : Crew} (distinct : (tasks.map (·.key)).Nodup) (a : Accounts e label tasks s k)
    (taken : Turn e label s.handles.length k k') : Accounts e label tasks s k' := by
  cases taken with
  | pause ts s₁ =>
    exact a.wait (pause_steady s₁).hosts (fun _ => pause_elapses s₁) fun h found => handle?_pause found
  | ended which ts s₁ =>
    exact a.wait (finishAll_steady s₁ which).hosts (fun _ => finishAll_elapses s₁ which)
      fun h found => handle?_finishAll found which
  | @fails t f improper before after s₁ =>
    have fresh : Fresh s.handles.length t.key s₁ := a.threads ⟨t, .due⟩ (by simp)
    refine a.move distinct rfl rfl rfl ⟨fresh.elapse (.of_eq rfl rfl), ?_⟩ rfl rfl
    rw [refusal?, improper]
  | @starts t command read before after s₁ =>
    have fresh : Fresh s.handles.length t.key s₁ := a.threads ⟨t, .due⟩ (by simp)
    refine a.move distinct rfl rfl rfl ⟨fresh.elapse (.of_eq rfl rfl), rfl, ?_, fun why => ?_⟩ rfl rfl
    · rw [← a.hosts]
      rfl
    · rw [← a.hosts, refusal?, read]
      change (Host.Exchange.launch (s₁.hosts.behaviour _) _ _).outcome = _ ↔ _
      dsimp only
      split <;> next came => simp [came]
  | passes t c event ahead came before after s₁ =>
    obtain ⟨fresh, comes⟩ := a.threads ⟨t, .busy c (event :: ahead) came⟩ (by simp)
    exact a.move distinct rfl rfl rfl ⟨fresh.elapse (.of_eq rfl rfl), comes⟩ rfl rfl
  | breaks t c why before after s₁ =>
    obtain ⟨fresh, -, -, comes⟩ := a.threads ⟨t, .busy c [] (.error why)⟩ (by simp)
    exact a.move distinct rfl rfl rfl ⟨fresh.elapse (.of_eq rfl rfl), (comes why).mp rfl⟩ rfl rfl
  | givesUp t why before after s₁ =>
    obtain ⟨fresh, refused⟩ := a.threads ⟨t, .failed why⟩ (by simp)
    refine a.turn distinct rfl (fun key other => refuse_elapses s₁ why fun _ => other) ⟨?_, ?_⟩ ?_
    · rw [refused]
      rfl
    · rw [final, refused]
      exact fresh.refuse why
    · intro h found known
      refine ⟨_, handle?_updateHandle_self _ found, known.tell (a.apart distinct) rfl rfl ?_ ?_ ?_⟩
      · exact Handle.markIssueFailed_tasks h _
      · exact fun key knows => Handle.isIssued_markIssueFailed_iff knows _
      · exact Handle.markIssueFailed_issueFailures h _
  | handsOver t c before after s₁ =>
    obtain ⟨fresh, own, behaves, comes⟩ := a.threads ⟨t, .busy c [] (.ok ⟨⟩)⟩ (by simp)
    have issued : e.refusal? s.hosts label t = none :=
      Option.eq_none_iff_forall_ne_some.mpr fun why refused => by cases (comes why).mpr refused
    let q : Running := ⟨s.handles.length, before.length, t, label, c⟩
    refine a.turn distinct rfl (fun key other => issue_elapses s₁ q fun _ => other) ⟨issued, ?_⟩ ?_
    · rw [final, issued]
      dsimp only
      rw [← behaves]
      exact Fresh.issue (q := q) fresh trivial
    · intro h found known
      refine ⟨_, handle?_updateHandle_self _ found, known.tell (a.apart distinct) rfl rfl ?_ ?_ ?_⟩
      · exact Handle.markIssued_tasks h _ _
      · exact fun key knows => Handle.isIssued_markIssued_iff knows _ _
      · exact Handle.markIssued_issueFailures h _ _

end Accounts

theorem accounts_of_turns {e : Executor} {label : Option String} {tasks : List Task} {s : Session}
    {k : Crew} (distinct : (tasks.map (·.key)).Nodup)
    (unused : ∀ r ∈ s.running, r.handle ≠ s.handles.length)
    (turns : Turns e label s.handles.length (crew tasks s) k) : Accounts e label tasks s k := by
  induction turns with
  | refl => exact .crew unused
  | tail _ taken ih => exact ih.step distinct taken

theorem Ledger.allIssued_iff {ts : List Thread} {h : Handle Connection} (known : Ledger ts h) :
    h.allIssued ↔ ∀ th ∈ ts, th.stand.isOver := by
  rw [Handle.allIssued, known.tasks, List.all_map, List.all_eq_true]
  exact forall₂_congr fun th member => known.issued th member

theorem Ledger.mem_issueFailures_iff {ts : List Thread} {h : Handle Connection} (apart : Apart ts)
    (known : Ledger ts h) {th : Thread} (member : th ∈ ts) :
    th.task.key ∈ h.issueFailures ↔ th.stand.isRefused := by
  rw [known.refused.mem_iff, List.mem_map]
  constructor
  · rintro ⟨x, refused, same⟩
    obtain ⟨there, refused⟩ := List.mem_filter.mp refused
    obtain rfl := List.inj_on_of_nodup_map apart there member same
    exact refused
  · exact fun refused => ⟨th, List.mem_filter.mpr ⟨member, refused⟩, rfl⟩

namespace Accounts
variable {e : Executor} {label : Option String} {tasks : List Task} {s : Session} {k : Crew}

theorem isRefused_eq (a : Accounts e label tasks s k) (finished : k.IsOver) {th : Thread}
    (member : th ∈ k.threads) : th.stand.isRefused = (e.refusal? s.hosts label th.task).isSome := by
  have stands := a.threads th member
  have done := finished th member
  obtain ⟨t, stand⟩ := th
  cases stand with
  | refused => exact stands.1.symm
  | issued => simp [Stand.isRefused, stands.1]
  | due => cases done
  | busy c ahead came => cases done
  | failed why => cases done

theorem promises (a : Accounts e label tasks s k) (finished : k.IsOver) {t : Task} (ht : t ∈ tasks) :
    Promises s.handles.length t.key (e.final s.hosts label t) (e.refusal? s.hosts label t = none)
      k.session := by
  rw [← a.given] at ht
  obtain ⟨th, member, rfl⟩ := List.mem_map.mp ht
  have stands := a.threads th member
  have done := finished th member
  obtain ⟨t, stand⟩ := th
  cases stand with
  | refused =>
    cases stands.2 with
    | kept found shown idle => exact .kept found shown idle
    | owed issued => exact issued.elim
  | issued => simpa only [stands.1] using stands.2
  | due => cases done
  | busy c ahead came => cases done
  | failed why => cases done

theorem dispatched_eq (distinct : (tasks.map (·.key)).Nodup) (a : Accounts e label tasks s k)
    (finished : k.IsOver) {h : Handle Connection} (known : Ledger k.threads h) :
    h.dispatched = (tasks.filter fun t => (e.refusal? s.hosts label t).isNone).map (·.key) := by
  rw [Handle.dispatched, known.tasks, ← a.given]
  refine congrArg (List.map _) (List.filter_congr fun t ht => ?_)
  obtain ⟨th, member, rfl⟩ := List.mem_map.mp ht
  have failed := known.mem_issueFailures_iff (a.apart distinct) member
  rw [a.isRefused_eq finished member] at failed
  rw [(known.issued th member).mpr (finished th member), Bool.true_and, Bool.eq_iff_iff,
    Bool.not_eq_true', ← Bool.not_eq_true, List.contains_iff_mem, failed]
  simp

theorem perm_issueFailures (a : Accounts e label tasks s k) (finished : k.IsOver) {h : Handle Connection}
    (known : Ledger k.threads h) : h.issueFailures.Perm
      ((tasks.filter fun t => !(e.refusal? s.hosts label t).isNone).map (·.key)) := by
  refine known.refused.trans (.of_eq ?_)
  rw [← a.given, List.filter_map, List.map_map]
  refine congrArg _ (List.filter_congr fun th member => ?_)
  rw [a.isRefused_eq finished member]
  simp

end Accounts

/-- A fan-out that is not waited for accounts for every task, in whatever order its threads take their
turns, and whichever commands end meanwhile. Its threads can always get to where the caller is let go,
which is when the handle knows of all tasks. Then every key is either dispatched, in the order of the
tasks, or failed: it is there with no return code and an error. Of a task that was issued there is no
result before its command has ended, neither then nor later on, unless the handle is given up. -/
theorem dispatch_accounts (e : Executor) (label : Option String) {tasks : List Task}
    (distinct : (tasks.map (·.key)).Nodup) {s : Session}
    (unused : ∀ r ∈ s.running, r.handle ≠ s.handles.length) :
    let id := s.handles.length
    (∃ k, Turns e label id (crew tasks s) k ∧ k.IsOver ∧
      exec (e.dispatch label tasks) s = (.ok id, k.session)) ∧
    ∀ k, Turns e label id (crew tasks s) k →
      (∃ k', Turns e label id k k' ∧ k'.IsOver) ∧
      ∃ h, k.session.handle? id = some h ∧ h.tasks = tasks ∧ (h.allIssued ↔ k.IsOver) ∧
      (∀ th ∈ k.threads, th.stand = .issued → h.results.get? th.task.key =
        if k.session.Runs id th.task.key then none else some (e.final s.hosts label th.task)) ∧
      (k.IsOver →
        h.dispatched = (tasks.filter fun t => (e.refusal? s.hosts label t).isNone).map (·.key) ∧
        (h.dispatched ++ h.issueFailures).Perm (tasks.map (·.key)) ∧
        (∀ key ∈ h.issueFailures, ∃ t ∈ tasks, ∃ why, t.key = key ∧
          e.refusal? s.hosts label t = some why ∧
          h.failed.get? key = some ⟨key, some t.host, none, some "", some "", some why⟩) ∧
        ∀ t ∈ tasks, t.key ∈ h.dispatched → ∀ later : List Move, .close id ∉ later →
          ∃ shown s₂, exec (join id) (after later k.session) = (.ok shown, s₂) ∧
            shown.get? t.key = if s₂.Runs id t.key then none else some (e.final s.hosts label t)) := by
  intro id
  refine ⟨turns_dispatch e label tasks s, fun k turns => ⟨turns_to_over e label id k, ?_⟩⟩
  have a := accounts_of_turns distinct unused turns
  obtain ⟨h, found, known⟩ := a.ledger
  refine ⟨h, found, known.tasks.trans a.given, known.allIssued_iff, fun th member issued => ?_,
    fun finished => ⟨a.dispatched_eq distinct finished known, ?_, fun key failed => ?_,
      fun t ht _ later open' => ?_⟩⟩
  · have stands := a.threads th member
    obtain ⟨t, stand⟩ := th
    obtain rfl : stand = .issued := issued
    obtain ⟨_, same, shown, -⟩ := stands.2.look
    obtain rfl := Option.some.inj (found.symm.trans same)
    exact shown
  · rw [a.dispatched_eq distinct finished known]
    refine ((a.perm_issueFailures finished known).append_left _).trans ?_
    rw [← List.map_append]
    exact (List.filter_append_perm _ tasks).map _
  · obtain ⟨t, listed, rfl⟩ := List.mem_map.mp ((a.perm_issueFailures finished known).mem_iff.mp failed)
    obtain ⟨ht, refused⟩ := List.mem_filter.mp listed
    obtain ⟨why, refused⟩ : ∃ why, e.refusal? s.hosts label t = some why :=
      Option.isSome_iff_exists.mp (by simpa using refused)
    refine ⟨t, ht, why, rfl, refused, ?_⟩
    obtain ⟨_, same, -, shown⟩ := (a.promises finished ht).look
    obtain rfl := Option.some.inj (found.symm.trans same)
    rw [Handle.failed, Table.get?_filter, shown (by simp [refused]), final, refused]
    rfl
  · have spared : ∀ past rest, later = past ++ .close id :: rest →
        ¬ (after past k.session).Runs id t.key := fun past rest split =>
      absurd (split ▸ List.mem_append_right past List.mem_cons_self) open'
    have kept := (a.promises finished ht).after spared
    obtain ⟨shown, s₂, looked, shows, -⟩ := kept.exec_join
    exact ⟨shown, s₂, looked, shows⟩

/-- Of three tasks one has no command that can be read, and with one even closing the connection fails
after its upload did. The third is issued, and its result comes when its command ends. -/
theorem dispatch_with_refusals :
    let e : Executor := ⟨⟨none, none, none⟩, []⟩
    let tasks : List Task := [⟨"a", "host0", .other⟩,
      ⟨"b", "host1", .command { line := "true", uploads := [⟨"~/x", none, some "text"⟩] }⟩,
      ⟨"c", "host1", .command { line := "false", asSudo := true }⟩]
    let hosts : Host.Script := [
      ⟨none, some (some "b"), none, { putErrors := [some "full"], closeError := some "reset" }⟩,
      ⟨none, some (some "c"), none, { answer := ⟨some 3, some "", some "no\n"⟩ }⟩]
    let s := Session.new hosts ⟨.empty, "/", "/", "/tmp", []⟩ "1"
    (tasks.map (·.key)).Nodup ∧ (∀ r ∈ s.running, r.handle ≠ s.handles.length) ∧
      ∀ k, Turns e none 0 (crew tasks s) k → k.IsOver →
        ∃ h, k.session.handle? 0 = some h ∧ h.allIssued ∧ h.dispatched = ["c"] ∧
          h.issueFailures.Perm ["a", "b"] ∧
          (∀ key ∈ h.issueFailures, ∃ r, h.failed.get? key = some r ∧ r.returnCode = none ∧
            (r.error = some "command must be a string or a RemoteCommand" ∨ r.error = some "reset")) ∧
          ∃ shown s₂, exec (join 0) (after [.ended fun _ => true] k.session) = (.ok shown, s₂) ∧
            shown.get? "c" = if s₂.Runs 0 "c" then none
              else some ⟨"c", some "host1", some 3, some "", some "no\n", none⟩ := by
  intro e tasks hosts s
  have distinct : (tasks.map (·.key)).Nodup := by decide
  have unused : ∀ r ∈ s.running, r.handle ≠ s.handles.length := by decide
  refine ⟨distinct, unused, fun k turns finished => ?_⟩
  obtain ⟨-, h, found, -, issued, -, told⟩ := (dispatch_accounts e none distinct unused).2 k turns
  obtain ⟨dispatched, all, failed, later⟩ := told finished
  have only : h.dispatched = ["c"] := dispatched.trans rfl
  refine ⟨h, found, issued.mpr finished, only, ?_, fun key refused => ?_, ?_⟩
  · rw [only] at all
    exact (List.perm_cons "c").mp (all.trans (by decide))
  · obtain ⟨t, ht, why, rfl, refused, shown⟩ := failed key refused
    refine ⟨_, shown, rfl, ?_⟩
    have messages : ∀ t ∈ tasks, ∀ why ∈ e.refusal? s.hosts none t,
        why = "command must be a string or a RemoteCommand" ∨ why = "reset" := by decide
    simpa using messages t ht why refused
  · exact later tasks[2] (by decide) (by rw [only]; decide) [.ended fun _ => true] (by simp)

end Flotilla.Executor.Issuing
