import Mathlib.Data.List.TakeWhile
import Flotilla.Proofs.Executor.FanOut

/-! A barrier: all tasks are run to their ends, and their failures are results. The one thing that
escapes is a command that fails without its host handing over the text of its complaints: the record
of that failure cannot be written, and the whole fan-out is lost with it. -/
namespace Flotilla.Executor
open Session

def outcome (e : Executor) (hosts : Host.Script) (label : Option String) (t : Task) :
    Except String Host.Answer :=
  match t.command.read with
  | .ok command =>
    (Host.Exchange.complete (hosts.behaviour (channel label t)) e.access command).outcome
  | .error f => .error f.message

def result (e : Executor) (hosts : Host.Script) (label : Option String) (t : Task) : Result :=
  .ofOutcome t (e.outcome hosts label t)

theorem key_result (e : Executor) (hosts : Host.Script) (label : Option String) (t : Task) :
    (e.result hosts label t).key = t.key := by
  unfold result Result.ofOutcome
  split <;> rfl

/-- The command was run to its end and failed, and there is no text of its complaints. -/
def FailsMutely (e : Executor) (hosts : Host.Script) (label : Option String) (t : Task) : Prop :=
  ∃ a, e.outcome hosts label t = .ok a ∧ a.returnCode ≠ some 0 ∧ a.stderr = none

def Result.isMute (r : Result) : Bool := !r.isOk && r.stderr.isNone

theorem isMute_result_iff (e : Executor) (hosts : Host.Script) (label : Option String) (t : Task) :
    (e.result hosts label t).isMute ↔ e.FailsMutely hosts label t := by
  unfold result FailsMutely
  cases e.outcome hosts label t with
  | error why => simp [Result.ofOutcome, Result.failed, Result.isMute]
  | ok a =>
    simp [Result.ofOutcome, Result.ofAnswer, Result.isMute, Result.isOk]

theorem runTask_fst (e : Executor) (label : Option String) {t : Task} (h : t.isProper)
    (s : Session) : (e.runTask label t s).1 = some (e.result s.hosts label t) := by
  unfold runTask result outcome
  cases read : t.command.read with
  | error f => simp [Task.isProper, read, Except.isOk, Except.toBool] at h
  | ok command =>
    simp only [connection]
    split <;> next same => simp only [same, Result.ofOutcome]

theorem isProper_of_ne {t : Task} (h : t.command ≠ .other) : t.isProper := by
  unfold Task.isProper
  cases command : t.command <;> simp_all [Command.Given.read, Except.isOk, Except.toBool]

theorem runTasks_fst (e : Executor) (label : Option String) {tasks : List Task}
    (h : ∀ t ∈ tasks, t.isProper) (rs : Results) (s : Session) :
    (e.runTasks label tasks rs s).1 =
      tasks.foldl (fun rs t => rs.put t.key (e.result s.hosts label t)) rs := by
  induction tasks generalizing rs s with
  | nil => rfl
  | cons t r ih =>
    have first := runTask_fst e label (h t (by simp)) (pause s)
    have grows := (pause_grows s).trans (e.runTask_grows label t (pause s))
    rw [(pause_grows s).hosts] at first
    rw [runTasks]
    rcases taken : e.runTask label t (pause s) with ⟨x, s'⟩
    rw [taken] at first grows
    dsimp only at first grows ⊢
    rw [first, ih (fun u hu => h u (by simp [hu])), grows.hosts, List.foldl_cons]

def complaints (t : Task) (r : Result) : List Log.Record :=
  if r.isOk then [] else [failureLine t.key r (r.stderr.getD "")]

/-- The text of a host's complaints was called for where there is none. -/
def noText : Fault := .noMemberOf Value.null.kindName "strip"

def told (s : Session) (rs : List Log.Record) : Session :=
  { s with log := s.log ++ rs.map (Speaker.caller, ·) }

theorem told_nil (s : Session) : told s [] = s := by simp [told]

theorem told_told (s : Session) (rs rs' : List Log.Record) :
    told (told s rs) rs' = told s (rs ++ rs') := by
  simp [told]

theorem told_grows (s : Session) (rs : List Log.Record) : s.Grows (told s rs) [] rs where
  hosts := rfl
  trace := ⟨[], by simp [told], rfl⟩
  log := ⟨_, rfl, by simp [spoken, List.filter_map, Function.comp_def]⟩
  handles := fun {_ h} found => ⟨h, found, .refl h⟩

theorem exec_logResult {results : Results} {t : Task} {r : Result}
    (found : results.get? t.key = some r) (s : Session) :
    exec (logResult results t) s =
      if r.isMute then (.error noText, s) else (.ok ⟨⟩, told s (complaints t r)) := by
  unfold logResult Result.isMute complaints
  rw [found]
  cases ok : r.isOk with
  | true => simp [ok, told]
  | false => cases said : r.stderr <;> simp [ok, said, told, Run.log, Session.note, noText]

theorem exec_logResults {results : Results} {f : Task → Result} {tasks : List Task}
    (found : ∀ t ∈ tasks, results.get? t.key = some (f t)) (s : Session) :
    exec (tasks.forM (logResult results)) s =
      (if ∀ t ∈ tasks, ¬ (f t).isMute then .ok ⟨⟩ else .error noText,
        told s ((tasks.takeWhile fun t => !(f t).isMute).flatMap fun t => complaints t (f t))) := by
  induction tasks generalizing s with
  | nil => simp [told_nil]
  | cons t r ih =>
    rw [List.forM_eq_forM, List.forM_cons, exec_bind, exec_logResult (found t (by simp))]
    cases mute : (f t).isMute with
    | true => simp [mute, told_nil]
    | false =>
      have rest := ih (fun u hu => found u (by simp [hu])) (told s (complaints t (f t)))
      rw [List.forM_eq_forM] at rest
      simp [rest, mute, told_told]

theorem exec_execute (e : Executor) (label : Option String) {tasks : List Task}
    (distinct : (tasks.map (·.key)).Nodup) (proper : ∀ t ∈ tasks, t.isProper) (s : Session) :
    ∃ rs s', exec (e.execute label tasks) s =
        (if ∀ t ∈ tasks, ¬ (e.result s.hosts label t).isMute then .ok rs else .error noText, s') ∧
      rs.keys = tasks.map (·.key) ∧
      (∀ t ∈ tasks, rs.get? t.key = some (e.result s.hosts label t)) ∧
      s.Grows s' (channels label tasks)
        ((tasks.takeWhile fun t => !(e.result s.hosts label t).isMute).flatMap fun t =>
          complaints t (e.result s.hosts label t)) := by
  have entered := runTasks_fst e label proper .empty s
  have ran := runTasks_grows e label tasks .empty s
  rcases taken : e.runTasks label tasks .empty s with ⟨rs, s₁⟩
  rw [taken] at entered ran
  dsimp only at entered ran
  have found : ∀ t ∈ tasks, rs.get? t.key = some (e.result s.hosts label t) := by
    intro t ht
    rw [entered]
    exact Table.get?_foldl_put_of_mem Task.key (e.result s.hosts label) _ distinct ht
  have keys : rs.keys = tasks.map (·.key) := by
    rw [entered]
    exact Table.keys_foldl_put Task.key (e.result s.hosts label) tasks _ (by simpa using distinct)
  refine ⟨rs, _, ?_, keys, found, by simpa using ran.trans (told_grows s₁ _)⟩
  rw [execute, exec_bind, exec_get]
  simp only [taken, exec_bind, exec_set, exec_logResults found]
  by_cases loud : ∀ t ∈ tasks, ¬ (e.result s.hosts label t).isMute
  · rw [if_pos loud, if_pos loud]
    rfl
  · rw [if_neg loud, if_neg loud]

theorem logResult_told (results : Results) (t : Task) (s : Session) :
    ∃ rs, (exec (logResult results t) s).2 = told s rs := by
  unfold logResult
  split
  · exact ⟨[], (told_nil s).symm⟩
  · split
    · exact ⟨[], (told_nil s).symm⟩
    · split
      · exact ⟨[_], rfl⟩
      · exact ⟨[], (told_nil s).symm⟩

theorem logResults_told (results : Results) (tasks : List Task) (s : Session) :
    ∃ rs, (exec (tasks.forM (logResult results)) s).2 = told s rs := by
  induction tasks generalizing s with
  | nil => exact ⟨[], (told_nil s).symm⟩
  | cons t r ih =>
    obtain ⟨first, logged⟩ := logResult_told results t s
    rw [List.forM_eq_forM, List.forM_cons, exec_bind]
    rcases taken : exec (logResult results t) s with ⟨_ | _, s'⟩ <;> rw [taken] at logged
    · exact ⟨first, logged⟩
    · obtain ⟨rest, logged'⟩ := ih s'
      refine ⟨first ++ rest, logged'.trans ?_⟩
      rw [← told_told, ← logged]

theorem execute_told (e : Executor) (label : Option String) (tasks : List Task) (s : Session) :
    ∃ rs, (exec (e.execute label tasks) s).2 = told (e.runTasks label tasks .empty s).2 rs := by
  rcases taken : e.runTasks label tasks .empty s with ⟨results, s'⟩
  obtain ⟨rs, logged⟩ := logResults_told results tasks s'
  refine ⟨rs, ?_⟩
  rw [execute, exec_bind_ok (exec_get s), taken, exec_bind_ok (exec_set _ _), exec_bind, ← logged]
  rcases exec (tasks.forM (logResult results)) s' with ⟨_ | _, _⟩ <;> rfl

theorem execute_opens (e : Executor) (label : Option String) (tasks : List Task) (s : Session) :
    s.Opens (exec (e.execute label tasks) s).2 (channels label tasks) := by
  obtain ⟨rs, same⟩ := e.execute_told label tasks s
  rw [same]
  exact ⟨rs, by simpa using (runTasks_grows e label tasks .empty s).trans (told_grows _ rs)⟩

def IsUnwritten (f : Fault) : Prop := (∃ key, f = .unknownKey key) ∨ f = noText

theorem not_isUnwritten_disorder (why : Disorder) : ¬ IsUnwritten (.disorder why) := by
  rintro (⟨key, lost⟩ | lost) <;> cases lost

theorem fault_of_logResults {results : Results} {tasks : List Task} {s : Session} {f : Fault}
    (h : (exec (tasks.forM (logResult results)) s).1 = .error f) : IsUnwritten f := by
  have single (t : Task) (s : Session) (h : (exec (logResult results t) s).1 = .error f) :
      IsUnwritten f := by
    unfold logResult at h
    split at h
    · exact .inl ⟨t.key, (Except.error.inj h).symm⟩
    · split at h
      · cases h
      · split at h
        · cases h
        · exact .inr (Except.error.inj h).symm
  induction tasks generalizing s with
  | nil => cases h
  | cons t r ih =>
    rw [List.forM_eq_forM, List.forM_cons] at h
    rcases fault_of_exec_bind h with first | ⟨-, s', -, later⟩
    · exact single t s first
    · exact ih later

theorem fault_of_execute {e : Executor} {label : Option String} {tasks : List Task} {s : Session}
    {f : Fault} (h : (exec (e.execute label tasks) s).1 = .error f) : IsUnwritten f := by
  rw [execute, exec_bind_ok (exec_get s), exec_bind_ok (exec_set _ _)] at h
  rcases fault_of_exec_bind h with logged | ⟨-, s', -, returned⟩
  · exact fault_of_logResults logged
  · cases returned

/-- What is asked of a barrier: it returns a result for each task and no other, and the caller has
written one record for each that is not good, in the order of the tasks. -/
def Kept (e : Executor) (label : Option String) (tasks : List Task) (s : Session) : Prop :=
  let (x,s') := exec (e.execute label tasks) s
  ∃ rs, x = .ok rs ∧ rs.keys.Perm (tasks.map (·.key)) ∧
    (∀ t ∈ tasks, rs.get? t.key = some (e.result s.hosts label t)) ∧
    s'.recordsSince s .caller = (tasks.filter fun t => !(e.result s.hosts label t).isOk).map
      fun t => failureLine t.key (e.result s.hosts label t)
        ((e.result s.hosts label t).stderr.getD "")

theorem flatMap_complaints (tasks : List Task) (f : Task → Result) :
    (tasks.flatMap fun t => complaints t (f t)) = (tasks.filter fun t => !(f t).isOk).map
      fun t => failureLine t.key (f t) ((f t).stderr.getD "") := by
  induction tasks with
  | nil => rfl
  | cons t r ih =>
    rw [List.flatMap_cons, ih, complaints]
    cases ok : (f t).isOk <;> simp [ok]

/-- A barrier keeps what is asked of it exactly if none of its tasks fails mutely. Else the record of
the first of those cannot be written, and that is what ends it. -/
theorem execute_kept_iff (e : Executor) (label : Option String) {tasks : List Task}
    (distinct : (tasks.map (·.key)).Nodup) (proper : ∀ t ∈ tasks, t.command ≠ .other) (s : Session) :
    (e.Kept label tasks s ↔ ∀ t ∈ tasks, ¬ e.FailsMutely s.hosts label t) ∧
    ((∃ t ∈ tasks, e.FailsMutely s.hosts label t) →
      (exec (e.execute label tasks) s).1 = .error (.noMemberOf "NoneType" "strip")) := by
  have read : ∀ t ∈ tasks, t.isProper := fun t ht => isProper_of_ne (proper t ht)
  obtain ⟨rs, s', ran, keys, found, grows⟩ := exec_execute e label distinct read s
  simp only [← isMute_result_iff]
  by_cases loud : ∀ t ∈ tasks, ¬ (e.result s.hosts label t).isMute
  · rw [if_pos loud] at ran
    refine ⟨iff_of_true ?_ loud, ?_⟩
    · unfold Kept
      rw [ran]
      refine ⟨rs, rfl, keys ▸ .refl _, found, ?_⟩
      rw [grows.recordsSince, List.takeWhile_eq_self_iff.mpr (by simpa using loud),
        flatMap_complaints]
    · rintro ⟨t, ht, mute⟩
      exact absurd mute (loud t ht)
  · rw [if_neg loud] at ran
    refine ⟨iff_of_false ?_ loud, fun _ => by rw [ran]; rfl⟩
    unfold Kept
    rw [ran]
    rintro ⟨rs', returned, -⟩
    cases returned

/-- One task of two fails and tells why: its result is entered, and it is recorded. -/
theorem kept_with_complaint :
    let e : Executor := ⟨⟨none, none, none⟩, []⟩
    let tasks : List Task := [⟨"a", "host", .line "true"⟩, ⟨"b", "host", .line "false"⟩]
    let hosts : Host.Script :=
      [⟨none, some (some "b"), none, { answer := ⟨some 1, some "", some "no such unit\n"⟩ }⟩]
    let s := Session.new hosts ⟨.empty, "/", "/", "/tmp", []⟩ "1"
    (tasks.map (·.key)).Nodup ∧ (∀ t ∈ tasks, t.command ≠ .other) ∧ e.Kept none tasks s ∧
      ((exec (e.execute none tasks) s).2.recordsSince s .caller).map (·.text) =
        ["b: rc: 1 error: None stderr: no such unit"] := by
  intro e tasks hosts s
  have distinct : (tasks.map (·.key)).Nodup := by decide
  have proper : ∀ t ∈ tasks, t.command ≠ .other := by decide
  refine ⟨distinct, proper, (execute_kept_iff e none distinct proper s).1.mpr ?_, by decide⟩
  simp only [← isMute_result_iff]
  decide

/-- Not every barrier is kept: here the only command fails, and its host hands over no text. -/
theorem not_kept_without_text :
    let e : Executor := ⟨⟨none, none, none⟩, []⟩
    let tasks : List Task := [⟨"node0", "host", .line "false"⟩]
    let hosts : Host.Script := [⟨none, none, none, { answer := ⟨some 3, some "", none⟩ }⟩]
    let s := Session.new hosts ⟨.empty, "/", "/", "/tmp", []⟩ "1"
    (tasks.map (·.key)).Nodup ∧ (∀ t ∈ tasks, t.command ≠ .other) ∧ ¬ e.Kept none tasks s := by
  intro e tasks hosts s
  refine ⟨by decide, by decide, ?_⟩
  rintro ⟨rs, returned, -⟩
  have raised : (exec (e.execute none tasks) s).1 = .error noText := rfl
  cases raised.symm.trans returned

end Flotilla.Executor
