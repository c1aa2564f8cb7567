import Flotilla.Proofs.Report.Schedule
import Flotilla.Proofs.Session.Waning

/-! A handle in the hands of many: its tasks report to it, the caller looks at it and gives it up, in
any order and as often as they like. A result that has been seen once is not seen otherwise again, and
whoever gives the handle up leaves none of its tasks without a result and none of its connections
open. -/
namespace Flotilla.Executor
open Report (Mark)
open Session

/-- What is done to a handle: a task reports to it, or the caller gives it up or looks at it. -/
inductive Touch
  | mark (m : Mark Connection)
  | close
  | join

namespace Touch

def apply (h : Handle Connection) : Touch → Handle Connection
  | mark m => m.apply h
  | close => h.close.1
  | join => h

def run (id : Nat) (s : Session) : Touch → Session
  | mark m => s.updateHandle id fun h => m.apply h
  | close => (exec (Executor.close id) s).2
  | join => (exec (Executor.join id) s).2

@[simp] def issued? : Touch → Option String
  | mark m => m.issued?
  | _ => none

@[simp] def refused? : Touch → Option String
  | mark m => m.refused?.map (·.key)
  | _ => none

@[simp] def handed? : Touch → Option (String × Connection)
  | mark (.issued key (some c)) => some (key, c)
  | _ => none

end Touch

def touch (id : Nat) (ts : List Touch) (s : Session) : Session := ts.foldl (Touch.run id) s

def look (id : Nat) (s : Session) : Except Fault Results := (exec (join id) s).1

structure Holds (id : Nat) (s : Session) (h : Handle Connection) : Prop where
  found : s.handle? id = some h
  apart : ∀ r ∈ s.running, r.handle ≠ id

theorem Holds.wane {id : Nat} {s s' : Session} {h : Handle Connection} (holds : Holds id s h)
    (w : s.Wanes s') : Holds id s' h :=
  ⟨(w.apart holds.apart).trans holds.found, fun r hr => holds.apart r (w.running r hr)⟩

theorem Holds.update {id : Nat} {s : Session} {h : Handle Connection} (holds : Holds id s h)
    (f : Handle Connection → Handle Connection) : Holds id (s.updateHandle id f) (f h) :=
  ⟨handle?_updateHandle_self f holds.found, holds.apart⟩

theorem Holds.run {id : Nat} {s : Session} {h : Handle Connection} (holds : Holds id s h)
    (t : Touch) : Holds id (t.run id s) (t.apply h) := by
  cases t with
  | mark m => exact holds.update _
  | close =>
    rw [Touch.run, exec_close_of_handle holds.found]
    exact (holds.update _).wane (hangUps_wanes _ _)
  | join => exact holds.wane (join_wanes id s)

theorem Holds.touch {id : Nat} {s : Session} {h : Handle Connection} (holds : Holds id s h)
    (ts : List Touch) : Holds id (touch id ts s) (ts.foldl Touch.apply h) := by
  induction ts generalizing s h with
  | nil => exact holds
  | cons t r ih => exact ih (holds.run t)

theorem Holds.look {id : Nat} {s : Session} {h : Handle Connection} (holds : Holds id s h) :
    look id s = .ok h.results := by
  have after := (holds.wane (pause_wanes s)).found
  change Except.ok _ = _
  rw [after]
  rfl

theorem get?_results_close (h : Handle Connection) (k : String) :
    h.close.1.results.get? k = (h.results.get? k).or
      ((h.tasks.map (Result.failed · Handle.closedText)).find? (·.key = k)) := by
  rw [← Report.get?_collect, Report.collect, List.foldl_map]
  rfl

theorem get?_results_close_of_mem {h : Handle Connection} (distinct : (h.tasks.map (·.key)).Nodup)
    {t : Task} (ht : t ∈ h.tasks) :
    h.close.1.results.get? t.key =
      some ((h.results.get? t.key).getD (.failed t Handle.closedText)) := by
  have first : h.tasks.find? (fun u => u.key = t.key) = some t := by
    obtain ⟨u, found⟩ : ∃ u, h.tasks.find? (fun u => u.key = t.key) = some u :=
      Option.isSome_iff_exists.mp (List.find?_isSome.mpr ⟨t, ht, by simp⟩)
    have same : u.key = t.key := by simpa using List.find?_some found
    rw [found, List.inj_on_of_nodup_map distinct (List.mem_of_find?_eq_some found) ht same]
  have entered : (h.tasks.map (Result.failed · Handle.closedText)).find? (·.key = t.key) =
      some (.failed t Handle.closedText) := by
    rw [List.find?_map]
    exact congrArg (Option.map _) first
  rw [get?_results_close, entered]
  cases h.results.get? t.key <;> rfl

structure Follows (h : Handle Connection) (ts : List Touch) (h' : Handle Connection) : Prop where
  tasks : h'.tasks = h.tasks
  results : ∀ k r, h.results.get? k = some r → h'.results.get? k = some r
  issued : ∀ k, h.knows k → (h'.isIssued k ↔
    h.isIssued k ∨ k ∈ ts.filterMap Touch.issued? ∨ k ∈ ts.filterMap Touch.refused?)
  refused : ∀ k, k ∈ h'.issueFailures ↔ k ∈ h.issueFailures ∨ k ∈ ts.filterMap Touch.refused?
  connections : h'.connections = h.connections.putAll (ts.filterMap Touch.handed?)

theorem get?_results_apply (t : Touch) {h : Handle Connection} {k : String} {r : Result}
    (had : h.results.get? k = some r) : (t.apply h).results.get? k = some r := by
  cases t with
  | mark m =>
    rw [Touch.apply, Report.results_mark]
    exact Report.get?_collect_of_get? _ had
  | close => rw [Touch.apply, get?_results_close, had, Option.some_or]
  | join => exact had

theorem follows_touch (t : Touch) (h : Handle Connection) : Follows h [t] (t.apply h) where
  tasks := by
    cases t with
    | mark m => exact Report.tasks_mark h m
    | close => rfl
    | join => rfl
  results := fun _ _ => get?_results_apply t
  issued := by
    intro k known
    rcases t with (⟨key, c⟩ | r | r) | _ | _
    case mark.issued =>
      exact (h.isIssued_markIssued_iff known key c).trans (by simp [Mark.issued?, Mark.refused?])
    case mark.refused =>
      exact (h.isIssued_markIssueFailed_iff known r).trans (by simp [Mark.issued?, Mark.refused?])
    all_goals simp [Mark.issued?, Mark.refused?]; rfl
  refused := by
    intro k
    rcases t with (⟨key, c⟩ | r | r) | _ | _
    case mark.issued => simp [Touch.apply, Mark.apply, Mark.refused?]
    case mark.refused => simp [Touch.apply, Mark.apply, Mark.refused?, or_comm]
    all_goals simp [Mark.refused?]; rfl
  connections := by
    rcases t with (⟨key, _ | c⟩ | r | r) | _ | _
    case mark.issued.some => exact h.markIssued_connections key (some c)
    case mark.issued.none => exact h.markIssued_connections key none
    case mark.refused => exact h.markIssueFailed_connections r
    all_goals rfl

theorem Follows.trans {h h' h'' : Handle Connection} {ts ts' : List Touch} (a : Follows h ts h')
    (b : Follows h' ts' h'') : Follows h (ts ++ ts') h'' where
  tasks := b.tasks.trans a.tasks
  results := fun k r had => b.results k r (a.results k r had)
  issued := by
    intro k known
    rw [b.issued k (by rwa [Handle.knows, a.tasks]), a.issued k known]
    simp only [List.filterMap_append, List.mem_append]
    tauto
  refused := by
    intro k
    rw [b.refused, a.refused, List.filterMap_append, List.mem_append, or_assoc]
  connections := by rw [b.connections, a.connections, List.filterMap_append, Table.putAll_append]

theorem follows_touches (ts : List Touch) (h : Handle Connection) :
    Follows h ts (ts.foldl Touch.apply h) := by
  induction ts generalizing h with
  | nil => exact ⟨rfl, fun _ _ => id, by simp, by simp, rfl⟩
  | cons t r ih => exact (follows_touch t h).trans (ih _)

def Stays (rs rs' : Results) : Prop := ∀ k r, rs.get? k = some r → rs'.get? k = some r

/-- The connections of a handle are those handed over, as long as no key is given twice. -/
theorem values_touches {tasks : List Task} {ts : List Touch}
    (once : (ts.filterMap Touch.issued?).Nodup) :
    (ts.foldl Touch.apply ({ tasks } : Handle Connection)).connections.values =
      (ts.filterMap Touch.handed?).map (·.2) := by
  have keys : ((ts.filterMap Touch.handed?).map (·.1)).Sublist (ts.filterMap Touch.issued?) := by
    induction ts with
    | nil => exact .slnil
    | cons t r ih =>
      have rest := ih (once.sublist ((List.sublist_cons_self t r).filterMap _))
      rcases t with (⟨key, _ | c⟩ | x | x) | _ | _
      case mark.issued.none => exact rest.cons key
      case mark.issued.some => exact rest.cons_cons key
      all_goals exact rest
  rw [(follows_touches ts _).connections, Table.values, Table.entries_putAll]
  · rfl
  · exact once.sublist keys

theorem dispatched_touches {tasks : List Task} (ts : List Touch) :
    (ts.foldl Touch.apply ({ tasks } : Handle Connection)).dispatched =
      (tasks.map (·.key)).filter fun k =>
        (k ∈ ts.filterMap Touch.issued? ∨ k ∈ ts.filterMap Touch.refused?) ∧
          k ∉ ts.filterMap Touch.refused? := by
  have follows := follows_touches ts ({ tasks } : Handle Connection)
  rw [Handle.dispatched, follows.tasks, List.filter_map]
  refine congrArg _ (List.filter_congr fun t ht => ?_)
  have known : ({ tasks } : Handle Connection).knows t.key :=
    List.any_eq_true.mpr ⟨t, ht, beq_self_eq_true t.key⟩
  have issued := follows.issued t.key known
  have refused := follows.refused t.key
  rw [Bool.eq_iff_iff, Function.comp_apply, Bool.and_eq_true, issued, Bool.not_eq_true',
    ← Bool.not_eq_true, List.contains_iff_mem, refused, decide_eq_true_iff]
  simp only [Handle.isIssued, List.contains_nil, Bool.false_eq_true, List.not_mem_nil, false_or]

/-- A handle, whatever was done to it: a result that can be seen once can be seen from then on, and
what is failed and what is dispatched are read off what was done. Giving it up fails for nothing, tries
to close every connection that was handed over, and enters a result where there is none yet: what ends
later changes nothing. -/
theorem results_written_once {tasks : List Task} (distinct : (tasks.map (·.key)).Nodup) {s : Session}
    (unused : ∀ r ∈ s.running, r.handle ≠ s.handles.length) (past later : List Touch)
    (once : (past.filterMap Touch.issued?).Nodup) :
    let id := s.handles.length
    let now := touch id past { s with handles := s.handles ++ [{ tasks }] }
    let closed := exec (close id) now
    ∃ h rs, now.handle? id = some h ∧ look id now = .ok rs ∧
      (∃ rs', look id (touch id later now) = .ok rs' ∧ Stays rs rs') ∧
      h.failed.entries = rs.entries.filter (!·.2.isOk) ∧
      h.dispatched = ((tasks.map (·.key)).filter fun k =>
        (k ∈ past.filterMap Touch.issued? ∨ k ∈ past.filterMap Touch.refused?) ∧
          k ∉ past.filterMap Touch.refused?) ∧
      closed.1 = .ok ⟨⟩ ∧
      (∃ rs', look id (touch id later closed.2) = .ok rs' ∧ ∀ t ∈ tasks, rs'.get? t.key =
        some ((rs.get? t.key).getD
          ⟨t.key, some t.host, none, some "", some "", some "channel closed"⟩)) ∧
      ∃ new, closed.2.trace = now.trace ++ new ∧
        ((past.filterMap Touch.handed?).map (·.2.closing)).Sublist new := by
  intro id now closed
  have found : ({ s with handles := s.handles ++ [{ tasks }] } : Session).handle? id =
      some { tasks } := List.getElem?_concat_length
  have holds : Holds id now _ := Holds.touch ⟨found, unused⟩ past
  set h := past.foldl Touch.apply ({ tasks } : Handle Connection) with handle
  have known : h.tasks = tasks := (follows_touches past _).tasks
  have ran : closed = (.ok ⟨⟩, _) := exec_close_of_handle holds.found
  have given : Holds id closed.2 h.close.1 := holds.run .close
  refine ⟨h, h.results, holds.found, holds.look, ⟨_, (holds.touch later).look, ?_⟩, rfl,
    dispatched_touches past, by rw [ran], ⟨_, (given.touch later).look, ?_⟩, ?_⟩
  · exact (follows_touches later h).results
  · intro t ht
    refine (follows_touches later _).results _ _ (get?_results_close_of_mem ?_ ?_)
    · rwa [known]
    · rwa [known]
  · obtain ⟨new, passed, closings⟩ :=
      trace_hangUps h.connections.values (now.updateHandle id fun h => h.close.1)
    refine ⟨new, ?_, ?_⟩
    · rw [ran]
      exact passed
    · rw [handle, values_touches once, List.map_map] at closings
      exact closings

/-- A command that ends after it was given up is not seen to end. Its connection was hung up, though
that failed, and the task that could not be issued keeps its own result. -/
theorem late_end_unseen :
    let c : Connection := ⟨0, ⟨none, some "a", "host"⟩, { closeError := some "reset" }⟩
    let tasks : List Task := [⟨"a", "host", .line "true"⟩, ⟨"b", "host", .line "true"⟩]
    let refusal : Result := ⟨"b", some "host", none, some "", some "", some "timeout"⟩
    let past : List Touch := [.mark (.issued "a" (some c)), .mark (.refused refusal), .join]
    let later : List Touch :=
      [.mark (.ended ⟨"a", some "host", some 0, some "", some "", none⟩), .close]
    let s := Session.new [] ⟨.empty, "/", "/", "/tmp", []⟩ "1"
    let now := touch 0 past { s with handles := [{ tasks }] }
    let closed := (exec (close 0) now).2
    (tasks.map (·.key)).Nodup ∧ (∀ r ∈ s.running, r.handle ≠ s.handles.length) ∧
      (past.filterMap Touch.issued?).Nodup ∧
      (∃ h, now.handle? 0 = some h ∧ h.dispatched = ["a"] ∧ h.failed.keys = ["b"]) ∧
      (∃ rs, look 0 (touch 0 later closed) = .ok rs ∧
        rs.get? "a" =
          some ⟨"a", some "host", none, some "", some "", some "channel closed"⟩ ∧
        rs.get? "b" = some refusal) ∧
      c.closing ∈ closed.trace := by
  intro c tasks refusal past later s now closed
  have distinct : (tasks.map (·.key)).Nodup := by decide
  have unused : ∀ r ∈ s.running, r.handle ≠ s.handles.length := by decide
  have once : (past.filterMap Touch.issued?).Nodup := by decide
  obtain ⟨h, rs, found, seen, -, failed, dispatched, -, ⟨rs', shown, final⟩, new, passed, closings⟩ :=
    results_written_once distinct unused past later once
  have entered : rs.entries = [("b", refusal)] := by
    have looked : look 0 now = .ok ⟨[("b", refusal)], by decide⟩ := rfl
    cases looked.symm.trans seen
    rfl
  refine ⟨distinct, unused, once, ⟨h, found, dispatched, ?_⟩, ⟨rs', shown, ?_, ?_⟩, ?_⟩
  · rw [Table.keys, failed, entered]
    rfl
  · rw [final ⟨"a", "host", .line "true"⟩ (by decide), Table.get?, entered]
    rfl
  · rw [final ⟨"b", "host", .line "true"⟩ (by decide), Table.get?, entered]
    rfl
  · exact passed ▸ List.mem_append_right _ (closings.subset (by decide))

end Flotilla.Executor
