import Flotilla.Proofs.Executor.Reasons
import Flotilla.Proofs.Number.Written
import Flotilla.Proofs.Report.Store

/-! Failures and their reasons. What a command complained about is trimmed, and if nothing is left of it
the return code stands in its place; but a reason that a host gives by itself is kept as it is. So every
failure in a report is explained as long as no host fails a task for a reason that cannot be read. -/
namespace Flotilla

namespace Text

/-- Something of the text can be seen. -/
def isLegible (s : String) : Bool := s.toList.any fun c => !isBlank c

theorem isLegible_append (s t : String) : isLegible (s ++ t) = (isLegible s || isLegible t) := by
  simp [isLegible]

theorem isLegible_trim {s : String} (some : (trim s).isEmpty = false) : isLegible (trim s) := by
  cases trimmed : (s.toList.dropWhile isBlank).reverse.dropWhile isBlank with
  | nil => simp [trim, trimBy, trimmed] at some
  | cons c r =>
    have seen := List.head?_dropWhile_not isBlank (s.toList.dropWhile isBlank).reverse
    rw [trimmed] at seen
    simp only [List.head?_cons] at seen
    simp [isLegible, trim, trimBy, trimmed, seen]

end Text

def Executor.Result.isLegible (r : Result) : Bool := r.error.all Text.isLegible

namespace Host.Behaviour

def errors (b : Behaviour) : List (Option String) :=
  b.connectError :: b.putErrors ++ [b.runError, b.closeError, b.joinError]

variable {b : Behaviour} {c : Command} {why : String}

theorem isLegible_of_useFailure? (legible : ∀ why, some why ∈ b.errors → Text.isLegible why)
    (failed : b.useFailure? c = some why) : Text.isLegible why := by
  have lead : Text.isLegible (toString "upload to ") := by decide
  rcases Option.or_eq_some_iff.mp failed with upload | ⟨-, run⟩
  · rcases uploadsFailure?_cases upload with refused | ⟨u, -, rfl⟩
    · exact legible why (by simp [errors, refused])
    · simp only [ValueFault.message, Text.isLegible_append, lead, Bool.true_or]
  · exact legible why (by simp [errors, run])

theorem isLegible_of_failure? (legible : ∀ why, some why ∈ b.errors → Text.isLegible why)
    (failed : b.failure? c = some why) : Text.isLegible why := by
  rcases Option.or_eq_some_iff.mp failed with connect | ⟨-, later⟩
  · exact legible why (by simp [errors, connect])
  · rcases Option.or_eq_some_iff.mp later with close | ⟨-, use⟩
    · exact legible why (by simp [errors, close])
    · exact isLegible_of_useFailure? legible use

theorem isLegible_of_launchFailure (legible : ∀ why, some why ∈ b.errors → Text.isLegible why)
    (failed : b.connectError.or ((b.useFailure? c).map b.closeError.getD) = some why) :
    Text.isLegible why := by
  rcases Option.or_eq_some_iff.mp failed with connect | ⟨-, use⟩
  · exact legible why (by simp [errors, connect])
  · obtain ⟨first, used, rfl⟩ := Option.map_eq_some_iff.mp use
    cases close : b.closeError with
    | none => exact isLegible_of_useFailure? legible used
    | some last => exact legible last (by simp [errors, close])

end Host.Behaviour

namespace Report
open Executor Session

def Outcome.isExplained (o : Outcome) : Bool := o.status != .failed || o.error.any Text.isLegible

def isExplained (r : Report) : Bool := r.outcomes.all Outcome.isExplained

theorem isExplained_iff {r : Report} : r.isExplained ↔
    ∀ stage key o, (r.entries stage).get? key = some o → o.isExplained := by
  simp only [isExplained, List.all_eq_true, mem_outcomes_iff]
  constructor
  · exact fun all stage key o found => all o ⟨stage, key, found⟩
  · rintro all o ⟨stage, key, found⟩
    exact all stage key o found

/-- Only an error of its own can leave a result without an explanation. -/
theorem isExplained_ofResult (stage : String) (r : Result) :
    (Outcome.ofResult stage r).isExplained = r.isLegible := by
  obtain ⟨key, host, code, stdout, stderr, error⟩ := r
  cases error with
  | some why => simp [Outcome.isExplained, Outcome.ofResult, Outcome.explain, Result.isOk, Result.isLegible]
  | none =>
    have fallback : Text.isLegible "exited with " := by decide
    by_cases good : code = some 0
    · simp [Outcome.isExplained, Outcome.ofResult, Result.isOk, Result.isLegible, good]
    · cases said : (Text.trim (stderr.getD "")).isEmpty with
      | true =>
        simp [Outcome.isExplained, Outcome.ofResult, Outcome.explain, Result.isOk, Result.isLegible, good,
          said, Text.isLegible_append, fallback]
      | false =>
        simp [Outcome.isExplained, Outcome.ofResult, Outcome.explain, Result.isOk, Result.isLegible, good,
          said, Text.isLegible_trim said]

def Write.IsLegible (w : Write γ) : Prop :=
  match w with
  | .record _ results => ∀ key r, results.get? key = some r → r.isLegible
  | .recordDispatch _ h => ∀ key r, h.results.get? key = some r → r.isLegible
  | .recordSkipped _ _ _ => True
  | .updateFrom _ results => ∀ key r, results.get? key = some r → r.isLegible

theorem isExplained_rows {w : Write γ} (legible : w.IsLegible) : ∀ row ∈ w.rows, row.2.isExplained := by
  intro row member
  cases w with
  | record stage results =>
    obtain ⟨key, -, made⟩ := List.mem_filterMap.mp member
    obtain ⟨r, found, rfl⟩ := Option.map_eq_some_iff.mp made
    exact (isExplained_ofResult stage r).trans (legible key r found)
  | recordDispatch stage h =>
    obtain ⟨t, -, rfl⟩ := List.mem_map.mp member
    unfold standing
    split
    · next r found =>
      rw [Handle.failed, Table.get?_filter, Option.filter_eq_some_iff] at found
      exact (isExplained_ofResult stage r).trans (legible t.key r found.1)
    · rfl
  | recordSkipped stage keys reason =>
    obtain ⟨key, -, rfl⟩ := List.mem_map.mp member
    rfl
  | updateFrom stage results => cases member

theorem isExplained_apply {r : Report} (explained : r.isExplained) {w : Write γ}
    (legible : w.IsLegible) : (w.apply r).isExplained := by
  rw [isExplained_iff] at explained ⊢
  intro stage key o found
  rcases get?_apply_cases found with earlier | ⟨-, written | ⟨x, brought, rfl⟩⟩
  · exact explained stage key o earlier
  · exact isExplained_rows legible _ written
  · rw [isExplained_ofResult]
    cases w with
    | updateFrom _ results => exact legible key x brought
    | _ => cases brought

theorem isExplained_history {ws : List (Write γ)} (legible : ∀ w ∈ ws, w.IsLegible) {r : Report}
    (explained : r.isExplained) : (history ws r).isExplained := by
  induction ws generalizing r with
  | nil => exact explained
  | cons w ws ih =>
    exact ih (fun x hx => legible x (List.mem_cons_of_mem w hx))
      (isExplained_apply explained (legible w List.mem_cons_self))

theorem get?_record (stage : String) (results : Results) (key : String) :
    ((empty.record stage results).entries stage).get? key =
      (results.get? key).map (Outcome.ofResult stage) := by
  have here : stage = (Sheet.ofResults stage results).stage := rfl
  rw [record_eq_enter, entries_enter, if_pos here, get?_putAll_ofResults]
  cases results.get? key <;> rfl

theorem isLegible_of_record {stage : String} {results : Results}
    (explained : (empty.record stage results).isExplained) {key : String} {r : Result}
    (found : results.get? key = some r) : r.isLegible := by
  rw [← isExplained_ofResult stage]
  exact isExplained_iff.mp explained stage key _ (by rw [get?_record, found]; rfl)

/-- Waited for or not, the task fails for a reason that cannot be read. -/
def FailsIllegibly (e : Executor) (hosts : Host.Script) (label : Option String) (t : Task) : Prop :=
  (e.result hosts label t).isLegible = false ∨ (e.final hosts label t).isLegible = false

instance (e : Executor) (hosts : Host.Script) (label : Option String) (t : Task) :
    Decidable (FailsIllegibly e hosts label t) := inferInstanceAs (Decidable (_ ∨ _))

theorem isLegible_message {t : Task} {f : Fault} (read : t.command.read = .error f) :
    Text.isLegible f.message := by
  cases command : t.command with
  | other =>
    rw [command] at read
    obtain rfl := Except.error.inj read
    decide
  | _ =>
    rw [command] at read
    cases read

theorem error_result (e : Executor) (hosts : Host.Script) (label : Option String) (t : Task) :
    (e.result hosts label t).error = match t.command.read with
      | .ok command => (hosts.behaviour (channel label t)).failure? command
      | .error f => some f.message := by
  unfold result outcome
  cases t.command.read with
  | error f => rfl
  | ok command =>
    dsimp only
    rw [Host.Exchange.outcome_complete]
    cases (hosts.behaviour (channel label t)).failure? command <;> rfl

theorem error_final (e : Executor) (hosts : Host.Script) (label : Option String) (t : Task) :
    (e.final hosts label t).error = match t.command.read with
      | .ok command =>
        let b := hosts.behaviour (channel label t)
        (b.connectError.or ((b.useFailure? command).map b.closeError.getD)).or b.joinError
      | .error f => some f.message := by
  unfold final refusal?
  cases t.command.read with
  | error f => rfl
  | ok command =>
    dsimp only
    rw [Host.Exchange.outcome_launch, Host.Exchange.awaited]
    cases (hosts.behaviour (channel label t)).connectError.or _ with
    | some why => rfl
    | none => cases (hosts.behaviour (channel label t)).joinError <;> rfl

theorem not_failsIllegibly {e : Executor} {hosts : Host.Script} {label : Option String} {t : Task}
    (legible : ∀ why, some why ∈ (hosts.behaviour (channel label t)).errors → Text.isLegible why) :
    ¬ FailsIllegibly e hosts label t := by
  have readable (r : Result) (each : ∀ why, r.error = some why → Text.isLegible why) :
      r.isLegible ≠ false := by
    rw [Bool.ne_false_iff, Result.isLegible, Option.all_eq_true]
    exact each
  refine not_or.mpr ⟨readable _ fun why failed => ?_, readable _ fun why failed => ?_⟩
  · rw [error_result] at failed
    split at failed
    · exact Host.Behaviour.isLegible_of_failure? legible failed
    · next f read => exact Option.some.inj failed ▸ isLegible_message read
  · rw [error_final] at failed
    split at failed
    · rcases Option.or_eq_some_iff.mp failed with launch | ⟨-, join⟩
      · exact Host.Behaviour.isLegible_of_launchFailure legible launch
      · exact legible why (by simp [Host.Behaviour.errors, join])
    · next f read => exact Option.some.inj failed ▸ isLegible_message read

section
variable (e : Executor) (label : Option String) (tasks : List Task) (s : Session)

def later (ms : List Move) : Session := after ms (exec (e.dispatch label tasks) s).2

/-- The results of a fan-out that a caller gets: of a barrier, or those that its handle shows at some
time, given up or not. -/
inductive Yields : Results → Prop
  | waited {rs : Results} {s' : Session} : exec (e.execute label tasks) s = (.ok rs, s') → Yields rs
  | shown {ms : List Move} {rs : Results} {s' : Session} :
    exec (join s.handles.length) (later e label tasks s ms) = (.ok rs, s') → Yields rs

/-- What may be written of a fan-out into a report: its results, or its handle at some time. -/
inductive Accounts : Write Connection → Prop
  | record (stage : String) {rs : Results} : Yields e label tasks s rs → Accounts (.record stage rs)
  | updateFrom (stage : String) {rs : Results} :
    Yields e label tasks s rs → Accounts (.updateFrom stage rs)
  | recordDispatch (stage : String) {ms : List Move} {h : Handle Connection} :
    (later e label tasks s ms).handle? s.handles.length = some h → Accounts (.recordDispatch stage h)

end

section
variable {e : Executor} {label : Option String} {tasks : List Task} {s : Session}

theorem bears_later (unused : ∀ r ∈ s.running, r.handle ≠ s.handles.length)
    (legible : ∀ t ∈ tasks, ¬ FailsIllegibly e s.hosts label t) (ms : List Move) :
    Bears (·.isLegible) s.handles.length (later e label tasks s ms) := by
  refine (dispatch_bears e label unused fun t member => ?_).after (fun t => ?_) ms
  · exact (Bool.not_eq_false _).mp fun illegible => legible t member (.inr illegible)
  · have closed : Text.isLegible Handle.closedText := by decide
    exact closed

theorem Yields.isLegible (unused : ∀ r ∈ s.running, r.handle ≠ s.handles.length)
    (legible : ∀ t ∈ tasks, ¬ FailsIllegibly e s.hosts label t) {rs : Results}
    (yields : Yields e label tasks s rs) : ∀ key r, rs.get? key = some r → r.isLegible := by
  intro key r found
  cases yields with
  | waited ran =>
    obtain ⟨t, member, rfl⟩ := result_of_execute ran found
    exact (Bool.not_eq_false _).mp fun illegible => legible t member (.inl illegible)
  | shown looked => exact (bears_later unused legible _).exec_join looked key r found

theorem Accounts.isLegible (unused : ∀ r ∈ s.running, r.handle ≠ s.handles.length)
    (legible : ∀ t ∈ tasks, ¬ FailsIllegibly e s.hosts label t) {w : Write Connection}
    (accounts : Accounts e label tasks s w) : w.IsLegible := by
  cases accounts with
  | record stage yields => exact yields.isLegible unused legible
  | updateFrom stage yields => exact yields.isLegible unused legible
  | recordDispatch stage found =>
    obtain ⟨h, found', had⟩ := (bears_later unused legible _).found
    obtain rfl := Option.some.inj (found'.symm.trans found)
    exact had

theorem yields_illegible {t : Task} (unused : ∀ r ∈ s.running, r.handle ≠ s.handles.length)
    (illegible : FailsIllegibly e s.hosts label t) :
    ∃ rs r, Yields e label [t] s rs ∧ rs.get? t.key = some r ∧ r.isLegible = false := by
  have distinct : ([t].map (·.key)).Nodup := List.nodup_singleton _
  rcases illegible with waited | started
  · have failed : ∃ why, e.outcome s.hosts label t = .error why := by
      cases came : e.outcome s.hosts label t with
      | error why => exact ⟨why, rfl⟩
      | ok a => simp [result, came, Result.ofOutcome, Result.ofAnswer, Result.isLegible] at waited
    obtain ⟨why, failed⟩ := failed
    have proper : t.isProper := by
      cases read : t.command.read with
      | ok command => simp [Task.isProper, read, Except.isOk, Except.toBool]
      | error f =>
        have told := isLegible_message read
        rw [Result.isLegible, error_result, read] at waited
        exact absurd (waited.symm.trans told) Bool.false_ne_true
    have loud : ¬ (e.result s.hosts label t).isMute := by
      simp [result, failed, Result.ofOutcome, Result.failed, Result.isMute]
    obtain ⟨rs, s', ran, -, found, -⟩ := exec_execute e label distinct (by simpa using proper) s
    rw [if_pos (by simpa using loud)] at ran
    exact ⟨rs, _, .waited ran, found t (List.mem_singleton_self t), waited⟩
  · obtain ⟨rs, s', looked, found⟩ :=
      shown_when_ended e label distinct unused (List.mem_singleton_self t)
    exact ⟨rs, _, .shown looked, found, started⟩

end

/-- Whichever of some tasks are fanned out, waited for or not, and whatever is written of them into a
report whose failures are explained, its failures are explained after that: exactly if none of the tasks
fails for a reason that cannot be read. None does where all errors of its host can be read. -/
theorem explained_iff (e : Executor) (label : Option String) (tasks : List Task) {s : Session}
    (unused : ∀ r ∈ s.running, r.handle ≠ s.handles.length) :
    ((∀ chosen, chosen ⊆ tasks → ∀ r : Report, r.isExplained → ∀ ws,
      (∀ w ∈ ws, Accounts e label chosen s w) → (history ws r).isExplained) ↔
        ∀ t ∈ tasks, ¬ FailsIllegibly e s.hosts label t) ∧
      ∀ t, (∀ why, some why ∈ (s.hosts.behaviour (channel label t)).errors → Text.isLegible why) →
        ¬ FailsIllegibly e s.hosts label t := by
  refine ⟨⟨fun explained t member illegible => ?_, fun legible chosen within r explained ws accounts => ?_⟩,
    fun t => not_failsIllegibly⟩
  · obtain ⟨rs, r, yields, found, unread⟩ := yields_illegible unused illegible
    have recorded := explained [t] (by simpa using member) empty rfl [.record "" rs]
      (by simpa using Accounts.record "" yields)
    exact Bool.false_ne_true (unread.symm.trans (isLegible_of_record recorded found))
  · exact isExplained_history (fun w hw =>
      (accounts w hw).isLegible unused fun t member => legible t (within member)) explained

/-- Of three tasks one ends with a code and blank complaints, one is refused, and one is still running
when the handle is given up. -/
theorem explained_when_given_up :
    let e : Executor := ⟨⟨none, none, none⟩, []⟩
    let tasks : List Task :=
      [⟨"a", "host0", .line "false"⟩, ⟨"b", "host1", .line "true"⟩, ⟨"c", "host2", .line "sleep 9"⟩]
    let hosts : Host.Script := [
      ⟨none, some (some "a"), none, { answer := ⟨some 3, some "", some " \n"⟩ }⟩,
      ⟨none, some (some "b"), none, { connectError := some "refused", closeError := some "reset" }⟩]
    let s := Session.new hosts ⟨.empty, "/", "/", "/tmp", []⟩ "1"
    let ms : List Move := [.ended fun r => r.task.key = "a", .close 0]
    (∀ r ∈ s.running, r.handle ≠ s.handles.length) ∧
      ∃ rs s', exec (join 0) (later e none tasks s ms) = (.ok rs, s') ∧
        (empty.record "start" rs).isExplained ∧
        ∀ told ∈ [("a", "exited with 3"), ("b", "refused"), ("c", "channel closed")],
          (((empty.record "start" rs).entries "start").get? told.1).bind (·.error) = some told.2 := by
  intro e tasks hosts s ms
  have unused : ∀ r ∈ s.running, r.handle ≠ s.handles.length := by decide
  have legible : ∀ t ∈ tasks, ¬ FailsIllegibly e s.hosts none t := by decide
  obtain ⟨rs, shown, told⟩ : ∃ rs, (exec (join 0) (later e none tasks s ms)).1 = .ok rs ∧
      ∀ told ∈ [("a", "exited with 3"), ("b", "refused"), ("c", "channel closed")],
        ((rs.get? told.1).map (Outcome.ofResult "start")).bind (·.error) = some told.2 := by
    refine ⟨Table.ofList [("b", .failed ⟨"b", "host1", .line "true"⟩ "refused"),
      ("a", ⟨"a", some "host0", some 3, some "", some " \n", none⟩),
      ("c", .failed ⟨"c", "host2", .line "sleep 9"⟩ "channel closed")], ?_, ?_⟩ <;> decide +kernel
  have looked : exec (join 0) (later e none tasks s ms) =
      (.ok rs, (exec (join 0) (later e none tasks s ms)).2) := by rw [← shown]
  have accounts : ∀ w ∈ [Write.record "start" rs], Accounts e none tasks s w :=
    List.forall_mem_singleton.mpr (.record "start" (.shown looked))
  have explained := (explained_iff e none tasks unused).1.mpr legible tasks (List.Subset.refl tasks)
    empty rfl [.record "start" rs] accounts
  refine ⟨unused, rs, _, looked, explained, ?_⟩
  simpa only [get?_record] using told

/-- Not every failure is explained: a host that refuses a connection without a word leaves none. -/
theorem not_explained_refusal :
    let e : Executor := ⟨⟨none, none, none⟩, []⟩
    let tasks : List Task := [⟨"node0", "host", .line "true"⟩]
    let hosts : Host.Script := [⟨none, none, none, { connectError := some "" }⟩]
    let s := Session.new hosts ⟨.empty, "/", "/", "/tmp", []⟩ "1"
    ∃ rs s', exec (e.execute (some "stop") tasks) s = (.ok rs, s') ∧
      (empty.record "stop" rs).outcomes =
        [⟨"stop", "node0", some "host", .failed, none, some ""⟩] ∧
      ¬ (empty.record "stop" rs).isExplained := by
  intro e tasks hosts s
  let rs : Results := Table.ofList [("node0", .failed ⟨"node0", "host", .line "true"⟩ "")]
  have returned : (exec (e.execute (some "stop") tasks) s).1 = .ok rs := rfl
  exact ⟨rs, _, Prod.ext returned rfl, by decide +kernel, by decide +kernel⟩

end Report
end Flotilla
