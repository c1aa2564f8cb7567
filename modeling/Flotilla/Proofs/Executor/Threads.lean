import Mathlib.Logic.Relation
import Flotilla.Proofs.Host.Protocol
import Flotilla.Proofs.Session.Passage

/-! The threads of a barrier. There is one for each task, with a connection of its own, and they take
turns in any order, an event at a time; commands that were started before may end at any moment. They
share the session and the table of results, but the table has a place for each, and what a host does
depends on nothing but the channel. So each comes to what its task would come to alone. -/
namespace Flotilla.Executor
open Session

inductive Stand
  | due
  /-- What is still to pass over its connection, and what comes of it then. -/
  | busy (c : Connection) (ahead : List Host.Event) (came : Except String Host.Answer)
  | ended

def Stand.begun (e : Executor) (label : Option String) (t : Task) (command : Command) (s : Session) :
    Stand :=
  let c := s.connection (channel label t)
  let x := Host.Exchange.complete c.behaviour e.access command
  .busy c x.events x.outcome

structure Thread where
  task : Task
  stand : Stand

theorem mem_turned {α : Type} {before after : List α} {a b : α} :
    b ∈ before ++ a :: after ↔ b = a ∨ b ∈ before ++ after :=
  List.perm_middle.mem_iff.trans List.mem_cons

theorem key_ne_of_turned {α : Type} (key : α → String) {before after : List α} {a b : α}
    (distinct : ((before ++ a :: after).map key).Nodup) (other : b ∈ before ++ after) :
    key b ≠ key a := by
  have first := (List.perm_middle.map key).nodup_iff.mp distinct
  rw [List.map_cons, List.nodup_cons] at first
  exact fun same => first.1 (same ▸ List.mem_map_of_mem other)

structure Crew where
  threads : List Thread
  results : Results
  session : Session

def report (s : Session) (t : Task) : Except String Host.Answer → Session
  | .ok _ => s
  | .error why => s.note .task (Log.error s!"{t.key}: remote execution failed: {why}")

inductive Turn (e : Executor) (label : Option String) : Crew → Crew → Prop
  | pause (ts : List Thread) (rs : Results) (s : Session) :
      Turn e label ⟨ts, rs, s⟩ ⟨ts, rs, pause s⟩
  /-- A thread without a proper command dies. -/
  | dies {t : Task} {f : Fault} (improper : t.command.read = .error f) (before after : List Thread)
      (rs : Results) (s : Session) :
      Turn e label ⟨before ++ ⟨t, .due⟩ :: after, rs, s⟩ ⟨before ++ ⟨t, .ended⟩ :: after, rs, s⟩
  | starts {t : Task} {command : Command} (read : t.command.read = .ok command)
      (before after : List Thread) (rs : Results) (s : Session) :
      Turn e label ⟨before ++ ⟨t, .due⟩ :: after, rs, s⟩
        ⟨before ++ ⟨t, .begun e label t command s⟩ :: after, rs, { s with opened := s.opened + 1 }⟩
  | passes (t : Task) (c : Connection) (event : Host.Event) (ahead : List Host.Event)
      (came : Except String Host.Answer) (before after : List Thread) (rs : Results) (s : Session) :
      Turn e label ⟨before ++ ⟨t, .busy c (event :: ahead) came⟩ :: after, rs, s⟩
        ⟨before ++ ⟨t, .busy c ahead came⟩ :: after, rs, s.happen c [event]⟩
  | ends (t : Task) (c : Connection) (came : Except String Host.Answer) (before after : List Thread)
      (rs : Results) (s : Session) :
      Turn e label ⟨before ++ ⟨t, .busy c [] came⟩ :: after, rs, s⟩
        ⟨before ++ ⟨t, .ended⟩ :: after, rs.put t.key (.ofOutcome t came), report s t came⟩

/-- Any number of turns. -/
abbrev Turns (e : Executor) (label : Option String) : Crew → Crew → Prop :=
  Relation.ReflTransGen (Turn e label)

def crew (tasks : List Task) (s : Session) : Crew := ⟨tasks.map (⟨·, .due⟩), .empty, s⟩

def Crew.IsOver (k : Crew) : Prop := ∀ th ∈ k.threads, th.stand = .ended

def conclude (tasks : List Task) (results : Results) : Run Results := do
  tasks.forM (logResult results)
  return results

/-- A barrier can end like this, in some order of the turns. -/
def Ends (e : Executor) (label : Option String) (tasks : List Task) (s : Session)
    (ended : Except Fault Results × Session) : Prop :=
  ∃ k, Turns e label (crew tasks s) k ∧ k.IsOver ∧ exec (conclude tasks k.results) k.session = ended

/-- Barriers one after another, and their tables joined; the first fault is the end. -/
inductive EndsJoined (e : Executor) (label : Option String) :
    Results → List (List Task) → Session → Except Fault Results × Session → Prop
  | done (rs : Results) (s : Session) : EndsJoined e label rs [] s (.ok rs, s)
  | next {rs new : Results} {part : List Task} {parts : List (List Task)} {s s' : Session}
      {ended : Except Fault Results × Session} (first : e.Ends label part s (.ok new, s'))
      (later : EndsJoined e label (rs.putAll new.entries) parts s' ended) :
      EndsJoined e label rs (part :: parts) s ended
  | fails {rs : Results} {part : List Task} {parts : List (List Task)} {s s' : Session} {f : Fault}
      (first : e.Ends label part s (.error f, s')) :
      EndsJoined e label rs (part :: parts) s (.error f, s')

section
variable (e : Executor) (label : Option String)

theorem busy_turns (t : Task) (c : Connection) (ahead : List Host.Event)
    (came : Except String Host.Answer) (before after : List Thread) (rs : Results) (s : Session) :
    Turns e label ⟨before ++ ⟨t, .busy c ahead came⟩ :: after, rs, s⟩
      ⟨before ++ ⟨t, .ended⟩ :: after, rs.put t.key (.ofOutcome t came),
        report (s.happen c ahead) t came⟩ := by
  induction ahead generalizing s with
  | nil =>
    rw [happen_nil]
    exact .single (.ends t c came before after rs s)
  | cons event ahead ih =>
    rw [happen_cons]
    exact .head (.passes t c event ahead came before after rs s) (ih _)

def enter (rs : Results) (t : Task) : Option Result → Results
  | some r => rs.put t.key r
  | none => rs

theorem runTask_turns (t : Task) (before after : List Thread) (rs : Results) (s : Session) :
    Turns e label ⟨before ++ ⟨t, .due⟩ :: after, rs, s⟩
      ⟨before ++ ⟨t, .ended⟩ :: after, enter rs t (e.runTask label t s).1,
        (e.runTask label t s).2⟩ := by
  unfold runTask
  cases read : t.command.read with
  | error f => exact .single (.dies read before after rs s)
  | ok command =>
    have started : Turn e label _ _ := .starts read before after rs s
    have ran := Relation.ReflTransGen.head started (busy_turns e label t _ _ _ before after rs _)
    dsimp only
    split <;> next came => rwa [came] at ran

theorem runTasks_turns (tasks : List Task) (before : List Thread) (rs : Results) (s : Session) :
    Turns e label ⟨before ++ tasks.map (⟨·, .due⟩), rs, s⟩
      ⟨before ++ tasks.map (⟨·, .ended⟩), (e.runTasks label tasks rs s).1,
        (e.runTasks label tasks rs s).2⟩ := by
  induction tasks generalizing before rs s with
  | nil => exact .single (.pause _ rs s)
  | cons t r ih =>
    have first := runTask_turns e label t before (r.map (⟨·, .due⟩)) rs (pause s)
    have rest := ih (before ++ [⟨t, .ended⟩]) (enter rs t (e.runTask label t (pause s)).1)
      (e.runTask label t (pause s)).2
    simp only [List.append_assoc, List.singleton_append] at rest
    exact .head (.pause _ rs s) (first.trans rest)

theorem ends_execute (tasks : List Task) (s : Session) :
    e.Ends label tasks s (exec (e.execute label tasks) s) := by
  refine ⟨_, runTasks_turns e label tasks [] .empty s, ?_, ?_⟩
  · intro th member
    obtain ⟨t, -, rfl⟩ := List.mem_map.mp member
    rfl
  · rw [execute, exec_bind_ok (exec_get s), exec_bind_ok (exec_set _ _)]
    rfl

theorem endsJoined_execute (parts : List (List Task)) (rs : Results) (s : Session) :
    ∃ ended, EndsJoined e label rs parts s ended := by
  induction parts generalizing rs s with
  | nil => exact ⟨_, .done rs s⟩
  | cons part parts ih =>
    have first := ends_execute e label part s
    rcases ran : exec (e.execute label part) s with ⟨f | new, s'⟩ <;> rw [ran] at first
    · exact ⟨_, .fails first⟩
    · obtain ⟨ended, later⟩ := ih (rs.putAll new.entries) s'
      exact ⟨ended, .next first later⟩

theorem ended_turns (th : Thread) (before after : List Thread) (rs : Results) (s : Session) :
    ∃ rs' s', Turns e label ⟨before ++ th :: after, rs, s⟩
      ⟨before ++ ⟨th.task, .ended⟩ :: after, rs', s'⟩ := by
  obtain ⟨t, stand⟩ := th
  cases stand with
  | due => exact ⟨_, _, runTask_turns e label t before after rs s⟩
  | busy c ahead came => exact ⟨_, _, busy_turns e label t c ahead came before after rs s⟩
  | ended => exact ⟨rs, s, .refl⟩

theorem turns_to_end (k : Crew) : ∃ k', Turns e label k k' ∧ k'.IsOver := by
  have all (ts before : List Thread) (rs : Results) (s : Session) :
      ∃ rs' s', Turns e label ⟨before ++ ts, rs, s⟩
        ⟨before ++ ts.map fun th => ⟨th.task, .ended⟩, rs', s'⟩ := by
    induction ts generalizing before rs s with
    | nil => exact ⟨rs, s, .refl⟩
    | cons th ts ih =>
      obtain ⟨rs₁, s₁, first⟩ := ended_turns e label th before ts rs s
      obtain ⟨rs₂, s₂, rest⟩ := ih (before ++ [⟨th.task, .ended⟩]) rs₁ s₁
      simp only [List.append_assoc, List.singleton_append] at rest
      exact ⟨rs₂, s₂, first.trans rest⟩
  obtain ⟨rs', s', taken⟩ := all k.threads [] k.results k.session
  refine ⟨_, taken, fun th member => ?_⟩
  obtain ⟨_, -, rfl⟩ := List.mem_map.mp member
  rfl

end

/-- A thread by itself: it has its own connection, and once it is over, its result and an attempt. -/
def Thread.Stands (e : Executor) (label : Option String) (hosts : Host.Script)
    (opened : List Host.Channel) (rs : Results) (th : Thread) : Prop :=
  match th.stand with
  | .due => True
  | .busy c ahead came => c.channel = channel label th.task ∧ came = e.outcome hosts label th.task ∧
      (channel label th.task ∈ opened ∨ e.access.event ∈ ahead)
  | .ended => rs.get? th.task.key = some (e.result hosts label th.task) ∧
      channel label th.task ∈ opened

theorem Thread.Stands.mono {e : Executor} {label : Option String} {hosts : Host.Script}
    {opened new : List Host.Channel} {rs rs' : Results} {th : Thread}
    (h : th.Stands e label hosts opened rs) (same : rs'.get? th.task.key = rs.get? th.task.key) :
    th.Stands e label hosts (opened ++ new) rs' := by
  obtain ⟨t, stand⟩ := th
  cases stand with
  | due => trivial
  | busy c ahead came => exact ⟨h.1, h.2.1, h.2.2.imp_left (List.mem_append_left new)⟩
  | ended => exact ⟨same.trans h.1, List.mem_append_left new h.2⟩

/-- What holds of the threads of a barrier whatever turns they have taken. -/
structure Apart (e : Executor) (label : Option String) (tasks : List Task) (s : Session)
    (opened : List Host.Channel) (k : Crew) : Prop where
  grows : s.Grows k.session opened []
  given : k.threads.map (·.task) = tasks
  threads : ∀ th ∈ k.threads, th.Stands e label s.hosts opened k.results
  keys : ∀ key ∈ k.results.keys, key ∈ tasks.map (·.key)

namespace Apart
variable {e : Executor} {label : Option String} {tasks : List Task} {s : Session}
  {opened : List Host.Channel}

theorem crew : Apart e label tasks s [] (crew tasks s) where
  grows := .refl s
  given := by simp [Executor.crew, Function.comp_def]
  threads := by
    intro th member
    obtain ⟨t, -, rfl⟩ := List.mem_map.mp member
    trivial
  keys := by
    intro key member
    cases member

theorem turn {th th' : Thread} {before after : List Thread} {rs rs' : Results} {s₁ s₂ : Session}
    {new : List Host.Channel} (distinct : (tasks.map (·.key)).Nodup)
    (apart : Apart e label tasks s opened ⟨before ++ th :: after, rs, s₁⟩) (same : th'.task = th.task)
    (grows : s₁.Grows s₂ new []) (others : ∀ key ≠ th.task.key, rs'.get? key = rs.get? key)
    (mine : th'.Stands e label s.hosts (opened ++ new) rs') :
    Apart e label tasks s (opened ++ new) ⟨before ++ th' :: after, rs', s₂⟩ where
  grows := by simpa using apart.grows.trans grows
  given := by
    rw [← apart.given]
    simp [same]
  threads := by
    have keys : ((before ++ th :: after).map (·.task.key)).Nodup := by
      rwa [← apart.given, List.map_map] at distinct
    intro x member
    rcases mem_turned.mp member with rfl | other
    · exact mine
    · have theirs := apart.threads x (mem_turned.mpr (.inr other))
      exact theirs.mono (others _ (key_ne_of_turned (fun th : Thread => th.task.key) keys other))
  keys := by
    intro key member
    by_cases mine : key = th.task.key
    · rw [mine, ← apart.given]
      simp
    · obtain ⟨r, found⟩ := (rs'.mem_keys_iff key).mp member
      exact apart.keys key ((rs.mem_keys_iff key).mpr ⟨r, (others key mine).symm.trans found⟩)

end Apart

theorem report_grows (s : Session) (t : Task) (came : Except String Host.Answer) :
    s.Grows (report s t came) [] [] := by
  cases came with
  | ok a => exact .refl s
  | error why => exact .note s .task _

theorem Apart.step {e : Executor} {label : Option String} {tasks : List Task} {s : Session}
    {opened : List Host.Channel} {k k' : Crew} (distinct : (tasks.map (·.key)).Nodup)
    (proper : ∀ t ∈ tasks, t.isProper) (apart : Apart e label tasks s opened k)
    (turn : Turn e label k k') : ∃ opened', Apart e label tasks s opened' k' := by
  cases turn with
  | pause ts rs s₁ =>
    exact ⟨opened, by simpa using apart.grows.trans (pause_grows s₁), apart.given, apart.threads,
      apart.keys⟩
  | @dies t f improper before after rs s₁ =>
    have member : t ∈ tasks := by
      rw [← apart.given]
      simp
    have read := proper t member
    rw [Task.isProper, improper] at read
    cases read
  | @starts t command read before after rs s₁ =>
    have counted : s₁.Grows { s₁ with opened := s₁.opened + 1 } [] [] :=
      ⟨rfl, ⟨[], by simp, rfl⟩, ⟨[], by simp, rfl⟩, fun {_ h} found => ⟨h, found, .refl h⟩⟩
    refine ⟨_, apart.turn distinct rfl counted (fun _ _ => rfl) ⟨rfl, ?_, .inr ?_⟩⟩
    · rw [outcome, read, ← apart.grows.hosts]
      rfl
    · obtain ⟨inside, events, -⟩ := Host.Exchange.events_complete
        (s₁.connection (channel label t)).behaviour e.access command
      rw [events]
      exact List.mem_cons_self
  | passes t c event ahead came before after rs s₁ =>
    obtain ⟨own, comes, tried⟩ := apart.threads ⟨t, .busy c (event :: ahead) came⟩ (by simp)
    refine ⟨_, apart.turn distinct rfl (.happen s₁ c [event]) (fun _ _ => rfl) ⟨own, comes, ?_⟩⟩
    rcases tried with before | first
    · exact .inl (List.mem_append_left _ before)
    · rcases List.mem_cons.mp first with rfl | later
      · exact .inl (List.mem_append_right _ (own ▸ List.mem_singleton_self _))
      · exact .inr later
  | ends t c came before after rs s₁ =>
    obtain ⟨own, comes, tried⟩ := apart.threads ⟨t, .busy c [] came⟩ (by simp)
    refine ⟨_, apart.turn distinct rfl (report_grows s₁ t came) (fun key other => ?_) ⟨?_, ?_⟩⟩
    · rw [Table.get?_put, if_neg other]
    · rw [Table.get?_put, if_pos rfl, comes]
      rfl
    · exact List.mem_append_left _ (tried.resolve_right List.not_mem_nil)

theorem apart_of_turns {e : Executor} {label : Option String} {tasks : List Task} {s : Session}
    {k : Crew} (distinct : (tasks.map (·.key)).Nodup) (proper : ∀ t ∈ tasks, t.isProper)
    (turns : Turns e label (crew tasks s) k) : ∃ opened, Apart e label tasks s opened k := by
  induction turns with
  | refl => exact ⟨[], .crew⟩
  | tail _ turn ih =>
    obtain ⟨opened, apart⟩ := ih
    exact apart.step distinct proper turn

structure IsResults (e : Executor) (hosts : Host.Script) (label : Option String) (tasks : List Task)
    (rs : Results) : Prop where
  found : ∀ t ∈ tasks, rs.get? t.key = some (e.result hosts label t)
  absent : ∀ key ∉ tasks.map (·.key), rs.get? key = none

namespace IsResults
variable {e : Executor} {hosts : Host.Script} {label : Option String} {tasks tasks' : List Task}
  {rs rs' : Results}

theorem get?_eq (h : IsResults e hosts label tasks rs) (h' : IsResults e hosts label tasks' rs')
    (same : ∀ t, t ∈ tasks ↔ t ∈ tasks') (key : String) : rs.get? key = rs'.get? key := by
  have keys : key ∈ tasks.map (·.key) ↔ key ∈ tasks'.map (·.key) := by
    simp only [List.mem_map, same]
  by_cases known : key ∈ tasks.map (·.key)
  · obtain ⟨t, member, rfl⟩ := List.mem_map.mp known
    rw [h.found t member, h'.found t ((same t).mp member)]
  · rw [h.absent key known, h'.absent key (fun other => known (keys.mpr other))]

theorem keys_perm (h : IsResults e hosts label tasks rs) (distinct : (tasks.map (·.key)).Nodup) :
    rs.keys.Perm (tasks.map (·.key)) := by
  refine (List.perm_ext_iff_of_nodup rs.nodup distinct).mpr fun key => ?_
  rw [← Table.keys, ← not_iff_not, ← Table.get?_eq_none_iff]
  refine ⟨fun none known => ?_, h.absent key⟩
  obtain ⟨t, member, rfl⟩ := List.mem_map.mp known
  rw [h.found t member] at none
  cases none

end IsResults

theorem exec_conclude {results : Results} {f : Task → Result} {tasks : List Task}
    (found : ∀ t ∈ tasks, results.get? t.key = some (f t)) (loud : ∀ t ∈ tasks, ¬ (f t).isMute)
    (s : Session) : ∃ said, exec (conclude tasks results) s = (.ok results, told s said) := by
  have logged := exec_logResults found s
  rw [if_pos loud] at logged
  exact ⟨_, exec_bind_ok logged _⟩

/-- Whatever the order, a barrier ends with the result of each of its tasks, and has tried them all. -/
theorem of_ends {e : Executor} {label : Option String} {tasks : List Task}
    (distinct : (tasks.map (·.key)).Nodup) (proper : ∀ t ∈ tasks, t.isProper) {s : Session}
    (speaks : s.hosts.Speaks) {ended : Except Fault Results × Session}
    (h : e.Ends label tasks s ended) :
    ∃ rs, ended.1 = .ok rs ∧ IsResults e s.hosts label tasks rs ∧ ended.2.hosts = s.hosts ∧
      ∀ t ∈ tasks, channel label t ∈ openings (ended.2.trace.drop s.trace.length) := by
  obtain ⟨k, turns, done, rfl⟩ := h
  obtain ⟨opened, apart⟩ := apart_of_turns distinct proper turns
  have stands : ∀ t ∈ tasks, k.results.get? t.key = some (e.result s.hosts label t) ∧
      channel label t ∈ opened := by
    intro t member
    rw [← apart.given] at member
    obtain ⟨⟨t, stand⟩, there, rfl⟩ := List.mem_map.mp member
    obtain rfl : stand = .ended := done _ there
    exact apart.threads _ there
  obtain ⟨said, concluded⟩ := exec_conclude (fun t member => (stands t member).1)
    (fun t _ => not_isMute_of_speaks speaks e label t) k.session
  have grows := apart.grows.trans (told_grows k.session said)
  rw [concluded]
  refine ⟨k.results, rfl, ⟨fun t member => (stands t member).1, fun key unknown => ?_⟩, grows.hosts,
    fun t member => ?_⟩
  · exact (Table.get?_eq_none_iff _ key).mpr fun member => unknown (apart.keys key member)
  · rw [grows.openings_drop, List.append_nil]
    exact (stands t member).2

theorem get?_putAll_entries (t u : Results) (key : String) :
    (t.putAll u.entries).get? key = (u.get? key).or (t.get? key) := by
  cases found : u.get? key with
  | some r => exact Table.get?_putAll_of_mem u.nodup ((u.get?_eq_some_iff).mp found) t
  | none => exact Table.get?_putAll_of_notMem ((u.get?_eq_none_iff key).mp found) t

theorem of_endsJoined {e : Executor} {label : Option String} {parts : List (List Task)}
    (distinct : (parts.flatten.map (·.key)).Nodup) (proper : ∀ t ∈ parts.flatten, t.isProper)
    {rs : Results} {s : Session} (speaks : s.hosts.Speaks) {ended : Except Fault Results × Session}
    (h : EndsJoined e label rs parts s ended) :
    ∃ rs', ended.1 = .ok rs' ∧
      (∀ t ∈ parts.flatten, rs'.get? t.key = some (e.result s.hosts label t)) ∧
      ∀ key ∉ parts.flatten.map (·.key), rs'.get? key = rs.get? key := by
  induction h with
  | done rs s => exact ⟨rs, rfl, by simp, fun _ _ => rfl⟩
  | @next rs new part parts s s' ended first later ih =>
    rw [List.flatten_cons, List.map_append, List.nodup_append] at distinct
    obtain ⟨own, others, apart⟩ := distinct
    obtain ⟨_, returned, shown, hosts, -⟩ :=
      of_ends own (fun t ht => proper t (by simp [ht])) speaks first
    obtain rfl := Except.ok.inj returned
    have rest : ∀ t ∈ parts.flatten, t.isProper := fun t ht => proper t (by simp_all)
    obtain ⟨rs', came, found, left⟩ := ih others rest (hosts ▸ speaks)
    refine ⟨rs', came, fun t ht => ?_, fun key unknown => ?_⟩
    · rcases List.mem_append.mp ht with mine | later
      -- Parts share no keys, so what later parts enter leaves this result alone.
      · have elsewhere : t.key ∉ parts.flatten.map (·.key) := fun there =>
          apart _ (List.mem_map_of_mem mine) _ there rfl
        rw [left _ elsewhere, get?_putAll_entries, shown.found t mine, Option.some_or]
      · rw [found t later, hosts]
    · rw [List.flatten_cons, List.map_append, List.mem_append, not_or] at unknown
      rw [left key unknown.2, get?_putAll_entries, shown.absent key unknown.1, Option.none_or]
  | @fails rs part parts s s' f first =>
    rw [List.flatten_cons, List.map_append, List.nodup_append] at distinct
    obtain ⟨_, returned, -⟩ := of_ends distinct.1 (fun t ht => proper t (by simp [ht])) speaks first
    cases returned

theorem result_eq {e : Executor} {hosts : Host.Script} {label : Option String} {t : Task}
    {command : Command} (read : t.command.read = .ok command) :
    let b := hosts.behaviour (channel label t)
    e.result hosts label t = match b.failure? command with
      | some why => ⟨t.key, some t.host, none, some "", some "", some why⟩
      | none => ⟨t.key, some t.host, b.answer.returnCode, b.answer.stdout, b.answer.stderr, none⟩ := by
  intro b
  rw [result, outcome, read]
  dsimp only
  rw [Host.Exchange.outcome_complete]
  cases b.failure? command <;> rfl

/-- A barrier keeps its tasks apart. Its threads can always come to their end, and in whatever order
they take their turns it returns a table of its tasks with, for each, what a barrier of that task alone
returns for it: why it failed to be connected to, sent to, run or closed, or else the host's answer. All
tasks have been tried then. So the order of the tasks does not matter, nor whether they are split. -/
theorem barrier_keeps_apart (e : Executor) (label : Option String) {tasks : List Task}
    (distinct : (tasks.map (·.key)).Nodup) (proper : ∀ t ∈ tasks, t.command ≠ .other) {s : Session}
    (speaks : s.hosts.Speaks) :
    (∀ k, Turns e label (crew tasks s) k → ∃ k', Turns e label k k' ∧ k'.IsOver) ∧
    e.Ends label tasks s (exec (e.execute label tasks) s) ∧
    ∀ ended, e.Ends label tasks s ended → ∃ rs, ended.1 = .ok rs ∧
      rs.keys.Perm (tasks.map (·.key)) ∧
      (∀ t ∈ tasks, ∀ s₀ : Session, s₀.hosts = s.hosts → ∃ alone s₁,
        exec (e.execute label [t]) s₀ = (.ok alone, s₁) ∧ alone.keys = [t.key] ∧
        rs.get? t.key = alone.get? t.key) ∧
      (∀ t ∈ tasks, ∀ command, t.command.read = .ok command →
        let b := s.hosts.behaviour (channel label t)
        rs.get? t.key = some (match b.failure? command with
          | some why => ⟨t.key, some t.host, none, some "", some "", some why⟩
          | none =>
            ⟨t.key, some t.host, b.answer.returnCode, b.answer.stdout, b.answer.stderr, none⟩)) ∧
      (∀ t ∈ tasks, channel label t ∈ openings (ended.2.trace.drop s.trace.length)) ∧
      (∀ tasks', tasks'.Perm tasks → ∀ ended', e.Ends label tasks' s ended' →
        ∃ rs', ended'.1 = .ok rs' ∧ ∀ key, rs'.get? key = rs.get? key) ∧
      ∀ parts : List (List Task), parts.flatten = tasks →
        (∃ ended', EndsJoined e label .empty parts s ended') ∧
        ∀ ended', EndsJoined e label .empty parts s ended' →
          ∃ rs', ended'.1 = .ok rs' ∧ ∀ key, rs'.get? key = rs.get? key := by
  have read : ∀ t ∈ tasks, t.isProper := fun t ht => isProper_of_ne (proper t ht)
  refine ⟨fun k _ => turns_to_end e label k, ends_execute e label tasks s, fun ended ends => ?_⟩
  obtain ⟨rs, returned, shown, -, tried⟩ := of_ends distinct read speaks ends
  refine ⟨rs, returned, shown.keys_perm distinct, ?_, ?_, tried, ?_, ?_⟩
  · intro t member s₀ hosts
    have single : ∀ u ∈ [t], u.isProper := by simpa using read t member
    have distinct : ([t].map (·.key)).Nodup := by simp
    obtain ⟨alone, came, own, -⟩ :=
      of_ends distinct single (hosts ▸ speaks) (ends_execute e label [t] s₀)
    refine ⟨alone, _, Prod.ext came rfl, ?_, ?_⟩
    · exact List.perm_singleton.mp (own.keys_perm distinct)
    · rw [shown.found t member, own.found t (List.mem_singleton_self t), hosts]
  · intro t member command given
    exact (shown.found t member).trans (congrArg some (result_eq given))
  · intro tasks' perm ended' ends'
    obtain ⟨rs', returned', shown', -⟩ := of_ends ((perm.map (·.key)).nodup_iff.mpr distinct)
      (fun t ht => read t (perm.mem_iff.mp ht)) speaks ends'
    exact ⟨rs', returned', shown'.get?_eq shown fun t => perm.mem_iff⟩
  · rintro parts rfl
    refine ⟨endsJoined_execute e label parts .empty s, fun ended' joined => ?_⟩
    obtain ⟨rs', returned', found, left⟩ := of_endsJoined distinct read speaks joined
    have shown' : IsResults e s.hosts label parts.flatten rs' :=
      ⟨found, fun key unknown => (left key unknown).trans (Table.get?_empty key)⟩
    exact ⟨rs', returned', shown'.get?_eq shown fun _ => Iff.rfl⟩

/-- Of three tasks one has an upload that names no source, and one is refused by its host. The third is
run as if it were alone, in whatever order the threads end. -/
theorem barrier_with_failures :
    let e : Executor := ⟨⟨none, none, none⟩, []⟩
    let tasks : List Task := [
      ⟨"a", "host0", .command { line := "true", uploads := [⟨"~/x", none, none⟩] }⟩,
      ⟨"b", "host1", .line "true"⟩, ⟨"c", "host1", .command { line := "false", asSudo := true }⟩]
    let hosts : Host.Script := [⟨none, some (some "b"), none, { connectError := some "refused" }⟩,
      ⟨none, some (some "c"), none, { answer := ⟨some 3, some "", some "no\n"⟩ }⟩]
    let s := Session.new hosts ⟨.empty, "/", "/", "/tmp", []⟩ "1"
    (tasks.map (·.key)).Nodup ∧ (∀ t ∈ tasks, t.command ≠ .other) ∧ s.hosts.Speaks ∧
      ∀ ended, e.Ends none tasks s ended → ∃ rs, ended.1 = .ok rs ∧
        rs.get? "a" = some ⟨"a", some "host0", none, some "", some "",
          some "upload to ~/x has neither a local path nor content"⟩ ∧
        rs.get? "b" = some ⟨"b", some "host1", none, some "", some "", some "refused"⟩ ∧
        rs.get? "c" = some ⟨"c", some "host1", some 3, some "", some "no\n", none⟩ := by
  intro e tasks hosts s
  have distinct : (tasks.map (·.key)).Nodup := by decide
  have proper : ∀ t ∈ tasks, t.command ≠ .other := by decide
  have speaks : s.hosts.Speaks := Host.Script.speaks_of_rules (by decide)
  refine ⟨distinct, proper, speaks, fun ended ends => ?_⟩
  obtain ⟨rs, returned, -, -, shown, -⟩ :=
    (barrier_keeps_apart e none distinct proper speaks).2.2 ended ends
  exact ⟨rs, returned, shown tasks[0] (by decide) _ rfl, shown tasks[1] (by decide) _ rfl,
    shown tasks[2] (by decide) _ rfl⟩

end Flotilla.Executor
