import Mathlib.Data.List.Induction
import Flotilla.Proofs.Report.Layout
import Flotilla.Proofs.Report.Schedule

/-! A report as a store. Whatever is written into it, and in whatever order, it shows under a key of a
stage what was last entered there; only where that was a task that had been dispatched, it shows how the
task was first said to have ended. Stages and keys keep the order in which they came up. -/
namespace Flotilla.Report
open Executor

variable {γ : Type}

inductive Write (γ : Type)
  | record (stage : String) (results : Results)
  | recordDispatch (stage : String) (h : Handle γ)
  | recordSkipped (stage : String) (keys : List String) (reason : Option String)
  | updateFrom (stage : String) (results : Results)

namespace Write

def apply (r : Report) : Write γ → Report
  | record stage results => r.record stage results
  | recordDispatch stage h => r.recordDispatch stage h
  | recordSkipped stage keys reason => r.recordSkipped stage keys reason
  | updateFrom stage results => r.updateFrom stage results

def stage : Write γ → String
  | record stage _ => stage
  | recordDispatch stage _ => stage
  | recordSkipped stage _ _ => stage
  | updateFrom stage _ => stage

/-- What it enters. An update enters nothing. -/
def rows : Write γ → List (String × Outcome)
  | record stage results => (Sheet.ofResults stage results).rows
  | recordDispatch stage h => (Sheet.ofTasks stage h.failed h.tasks).rows
  | recordSkipped stage keys reason => (Sheet.ofSkipped stage keys reason).rows
  | updateFrom _ _ => []

def carried : Write γ → List (String × Result)
  | updateFrom _ results => results.entries
  | _ => []

def Named : Write γ → Prop
  | record _ results => Report.Named results
  | recordDispatch _ h => Report.Named h.results
  | recordSkipped _ _ _ => True
  | updateFrom _ results => Report.Named results

instance : (w : Write γ) → Decidable w.Named
  | record _ results => inferInstanceAs (Decidable (Report.Named results))
  | recordDispatch _ h => inferInstanceAs (Decidable (Report.Named h.results))
  | recordSkipped _ _ _ => .isTrue trivial
  | updateFrom _ results => inferInstanceAs (Decidable (Report.Named results))

def keysIn (stage : String) (w : Write γ) : List String :=
  if w.stage = stage then w.rows.map (·.1) else []

/-- The outcome it enters under a key of a stage, if it names the two; the last, if there are more. -/
def written? (stage key : String) (w : Write γ) : Option Outcome :=
  if w.stage = stage then w.rows.reverse.lookup key else none

def carried? (stage key : String) (w : Write γ) : Option Result :=
  if w.stage = stage then w.carried.lookup key else none

theorem apply_eq (r : Report) (w : Write γ) :
    w.apply r = r.update w.stage fun es => w.carried.foldl (settle w.stage) (es.putAll w.rows) := by
  cases w with
  | record stage results => exact record_eq_enter r stage results
  | recordDispatch stage h => exact recordDispatch_eq_enter r stage h
  | recordSkipped stage keys reason => exact recordSkipped_eq_enter r stage keys reason
  | updateFrom stage results => rfl

end Write

/-- An outcome in the light of a result that an update carried. -/
def Outcome.settledBy (stage : String) (o : Outcome) (x : Option Result) : Outcome :=
  if o.status = .dispatched then (x.map (.ofResult stage)).getD o else o

/-- What an outcome says of its task, by its status. -/
structure Outcome.IsConsistent (o : Outcome) : Prop where
  ok : o.status = .ok → o.returnCode = some 0 ∧ o.error = none
  failed : o.status = .failed → o.error ≠ none
  dispatched : o.status = .dispatched → o.returnCode = none ∧ o.error = none
  skipped : o.status = .skipped → o.host = none

/-- A stage or a key that comes up again keeps its place. -/
def comeUp (ks : List String) (k : String) : List String := if k ∈ ks then ks else ks ++ [k]

theorem eraseDups_concat (xs : List String) (x : String) :
    (xs ++ [x]).eraseDups = comeUp xs.eraseDups x := by
  rw [List.eraseDups_append, comeUp]
  simp only [List.mem_eraseDups]
  split
  · next seen => simp [List.removeAll, seen]
  · next new => simp [List.removeAll, new, List.eraseDups_cons]

theorem foldl_comeUp (xs : List String) : xs.foldl comeUp [] = xs.eraseDups := by
  induction xs using List.reverseRecOn with
  | nil => rfl
  | append_singleton xs x ih =>
    rw [List.foldl_append, ih, eraseDups_concat]
    rfl

theorem get?_putAll (es : Table String Outcome) (rows : List (String × Outcome)) (key : String) :
    (es.putAll rows).get? key = (rows.reverse.lookup key).or (es.get? key) := by
  induction rows using List.reverseRecOn with
  | nil => rfl
  | append_singleton rows row ih =>
    rw [Table.putAll_append, Table.putAll, List.foldl_cons, List.foldl_nil, Table.get?_put, ih,
      List.reverse_append, List.reverse_singleton, List.singleton_append, List.lookup_cons]
    by_cases same : key = row.1
    · simp [same]
    · simp [same, beq_false_of_ne same]

theorem settledBy_settledBy (stage : String) (o : Outcome) (x y : Option Result) :
    (o.settledBy stage x).settledBy stage y = o.settledBy stage (x.or y) := by
  unfold Outcome.settledBy
  by_cases waits : o.status = .dispatched
  · cases x with
    | none => simp [waits]
    | some r => simp [waits, status_ofResult]
  · simp [waits]

theorem settledBy_none (stage : String) (o : Outcome) : o.settledBy stage none = o := by
  simp [Outcome.settledBy]

/-- Of the results for one key, the first is the one that counts. -/
theorem get?_settles (stage : String) (xs : List (String × Result)) (es : Table String Outcome)
    (key : String) :
    (xs.foldl (settle stage) es).get? key =
      (es.get? key).map (·.settledBy stage (xs.lookup key)) := by
  induction xs generalizing es with
  | nil => simp [settledBy_none]
  | cons x xs ih =>
    have first : (settle stage es x).get? key =
        (es.get? key).map (·.settledBy stage (if key = x.1 then some x.2 else none)) := by
      rw [get?_settle]
      cases es.get? key with
      | none => simp
      | some o =>
        by_cases same : key = x.1 <;> by_cases waits : o.status = .dispatched <;>
          simp [same, waits, Outcome.settledBy]
    rw [List.foldl_cons, ih, first, Option.map_map, List.lookup_cons]
    congr 1
    funext o
    rw [Function.comp_apply, settledBy_settledBy]
    by_cases same : key = x.1
    · simp [same]
    · simp [same, beq_false_of_ne same]

theorem entries_apply (r : Report) (w : Write γ) (stage : String) :
    (w.apply r).entries stage =
      if stage = w.stage then w.carried.foldl (settle stage) ((r.entries stage).putAll w.rows)
      else r.entries stage := by
  rw [Write.apply_eq]
  split
  · next same => rw [same, entries_update]
  · next apart => rw [update, entries, Table.get?_put, if_neg apart, entries]

theorem get?_apply (r : Report) (w : Write γ) (stage key : String) :
    ((w.apply r).entries stage).get? key = (((w.written? stage key).or
      ((r.entries stage).get? key)).map (·.settledBy stage (w.carried? stage key))) := by
  rw [entries_apply, Write.written?, Write.carried?]
  by_cases same : stage = w.stage
  · rw [if_pos same, if_pos same.symm, if_pos same.symm, get?_settles, get?_putAll]
  · rw [if_neg same, if_neg (Ne.symm same), if_neg (Ne.symm same)]
    simp [settledBy_none]

theorem keys_settles (stage : String) (xs : List (String × Result)) (es : Table String Outcome) :
    (xs.foldl (settle stage) es).keys = es.keys :=
  List.foldlRecOn (motive := fun es' => es'.keys = es.keys) xs (settle stage) rfl
    fun es' keys x _ => (keys_settle stage es' x).trans keys

theorem keys_apply (r : Report) (w : Write γ) (stage : String) :
    ((w.apply r).entries stage).keys = (w.keysIn stage).foldl comeUp (r.entries stage).keys := by
  rw [entries_apply, Write.keysIn]
  by_cases same : stage = w.stage
  · rw [if_pos same, if_pos same.symm, keys_settles, Table.keys_putAll]
    rfl
  · rw [if_neg same, if_neg (Ne.symm same)]
    rfl

theorem stages_apply (r : Report) (w : Write γ) :
    (w.apply r).stages.keys = comeUp r.stages.keys w.stage := by
  rw [Write.apply_eq, update, Table.keys_put, comeUp]

theorem get?_updateFrom {r : Report} (stage : String) (results : Results) {stage' key : String}
    {o : Outcome} (found : (r.entries stage').get? key = some o)
    (kept : stage' ≠ stage ∨ o.status ≠ .dispatched) :
    ((r.updateFrom stage results).entries stage').get? key = some o := by
  rw [updateFrom]
  by_cases same : stage' = stage
  · rw [same, entries_update, get?_settles, ← same, found, Option.map_some, Outcome.settledBy,
      if_neg (kept.resolve_left (not_not_intro same))]
  · rw [update, entries, Table.get?_put, if_neg same]
    exact found

theorem isConsistent_ofResult (stage : String) (r : Result) :
    (Outcome.ofResult stage r).IsConsistent := by
  obtain ⟨key, host, code, stdout, stderr, error⟩ := r
  constructor
  all_goals
    cases error <;> by_cases good : code = some 0 <;>
      simp [Outcome.ofResult, Outcome.explain, Result.isOk, good]

theorem isConsistent_dispatched (stage : String) (t : Task) :
    (Outcome.dispatched stage t).IsConsistent := by
  constructor <;> simp [Outcome.dispatched]

theorem isConsistent_skipped (stage key : String) (reason : Option String) :
    (Outcome.skipped stage key reason).IsConsistent := by
  constructor <;> simp [Outcome.skipped]

structure Filed (stage : String) (e : String × Outcome) : Prop where
  key : e.2.key = e.1
  stage : e.2.stage = stage
  consistent : e.2.IsConsistent

theorem filed_ofResult {results : Results} (named : Named results) (stage : String) {key : String}
    {r : Result} (found : results.get? key = some r) : Filed stage (key, .ofResult stage r) :=
  ⟨named key r found, rfl, isConsistent_ofResult stage r⟩

theorem Named.failed {h : Handle γ} (named : Named h.results) : Named h.failed := by
  intro key r found
  rw [Handle.failed, Table.get?_filter, Option.filter_eq_some_iff] at found
  exact named key r found.1

theorem filed_rows {w : Write γ} (named : w.Named) : ∀ row ∈ w.rows, Filed w.stage row := by
  intro row member
  cases w with
  | record stage results =>
    obtain ⟨key, -, made⟩ := List.mem_filterMap.mp member
    obtain ⟨r, found, rfl⟩ := Option.map_eq_some_iff.mp made
    exact filed_ofResult named stage found
  | recordDispatch stage h =>
    obtain ⟨t, -, rfl⟩ := List.mem_map.mp member
    unfold standing
    split
    · next r found => exact filed_ofResult (Named.failed named) stage found
    · exact ⟨rfl, rfl, isConsistent_dispatched stage t⟩
  | recordSkipped stage keys reason =>
    obtain ⟨key, -, rfl⟩ := List.mem_map.mp member
    exact ⟨rfl, rfl, isConsistent_skipped stage key reason⟩
  | updateFrom stage results => cases member

theorem filed_carried {w : Write γ} (named : w.Named) {key : String} {r : Result}
    (found : w.carried.lookup key = some r) : Filed w.stage (key, .ofResult w.stage r) := by
  cases w with
  | updateFrom stage results => exact filed_ofResult named stage found
  | _ => cases found

def IsFiled (r : Report) : Prop :=
  ∀ stage key o, (r.entries stage).get? key = some o → Filed stage (key, o)

theorem isFiled_empty : empty.IsFiled := by
  intro stage key o found
  cases found

theorem get?_apply_cases {r : Report} {w : Write γ} {stage key : String} {o : Outcome}
    (found : ((w.apply r).entries stage).get? key = some o) :
    (r.entries stage).get? key = some o ∨ w.stage = stage ∧
      ((key, o) ∈ w.rows ∨ ∃ x, w.carried.lookup key = some x ∧ o = .ofResult stage x) := by
  rw [get?_apply, Option.map_eq_some_iff] at found
  obtain ⟨o, there, rfl⟩ := found
  have before : (r.entries stage).get? key = some o ∨ w.stage = stage ∧ (key, o) ∈ w.rows := by
    rcases Option.or_eq_some_iff.mp there with written | ⟨-, earlier⟩
    · unfold Write.written? at written
      split at written
      · next same =>
        obtain ⟨_, _, split, -⟩ := List.lookup_eq_some_iff.mp written
        exact .inr ⟨same, List.mem_reverse.mp (by simp [split])⟩
      · cases written
    · exact .inl earlier
  unfold Outcome.settledBy
  split
  · cases brought : w.carried? stage key with
    | none => exact before.imp_right fun entered => ⟨entered.1, .inl entered.2⟩
    | some x =>
      unfold Write.carried? at brought
      split at brought
      · next same => exact .inr ⟨same, .inr ⟨x, brought, rfl⟩⟩
      · cases brought
  · exact before.imp_right fun entered => ⟨entered.1, .inl entered.2⟩

theorem isFiled_apply {r : Report} (filed : r.IsFiled) {w : Write γ} (named : w.Named) :
    (w.apply r).IsFiled := by
  intro stage key o found
  rcases get?_apply_cases found with earlier | ⟨rfl, written | ⟨x, brought, rfl⟩⟩
  · exact filed stage key o earlier
  · exact filed_rows named _ written
  · exact filed_carried named brought

def history (ws : List (Write γ)) (r : Report) : Report := ws.foldl Write.apply r

theorem history_append (ws ws' : List (Write γ)) (r : Report) :
    history (ws ++ ws') r = history ws' (history ws r) := List.foldl_append

theorem stages_history (ws : List (Write γ)) (r : Report) :
    (history ws r).stages.keys = (ws.map Write.stage).foldl comeUp r.stages.keys := by
  induction ws generalizing r with
  | nil => rfl
  | cons w ws ih => exact (ih (w.apply r)).trans (by rw [stages_apply]; rfl)

theorem keys_history (ws : List (Write γ)) (r : Report) (stage : String) :
    ((history ws r).entries stage).keys =
      (ws.flatMap (Write.keysIn stage)).foldl comeUp (r.entries stage).keys := by
  induction ws generalizing r with
  | nil => rfl
  | cons w ws ih =>
    rw [List.flatMap_cons, List.foldl_append, ← keys_apply]
    exact ih (w.apply r)

theorem isFiled_history {ws : List (Write γ)} (named : ∀ w ∈ ws, w.Named) {r : Report}
    (filed : r.IsFiled) : (history ws r).IsFiled := by
  induction ws generalizing r with
  | nil => exact filed
  | cons w ws ih =>
    exact ih (fun x hx => named x (List.mem_cons_of_mem w hx))
      (isFiled_apply filed (named w List.mem_cons_self))

/-- While nothing is entered under a key, only the first result for it can make a difference. -/
theorem get?_history {ws : List (Write γ)} {stage key : String}
    (unwritten : ∀ w ∈ ws, w.written? stage key = none) (r : Report) :
    ((history ws r).entries stage).get? key = ((r.entries stage).get? key).map
      (·.settledBy stage (ws.findSome? (Write.carried? stage key))) := by
  induction ws generalizing r with
  | nil => simp [history, settledBy_none]
  | cons w ws ih =>
    have first := get?_apply r w stage key
    rw [unwritten w List.mem_cons_self, Option.none_or] at first
    have rest := ih (fun x hx => unwritten x (List.mem_cons_of_mem w hx)) (w.apply r)
    rw [history, List.foldl_cons, ← history, rest, first, Option.map_map, List.findSome?_cons]
    congr 1
    funext o
    rw [Function.comp_apply, settledBy_settledBy]
    cases w.carried? stage key <;> rfl

theorem IsFiled.outcomesAt_eq {r : Report} (filed : r.IsFiled) (stage key : String) :
    r.outcomesAt stage key = ((r.entries stage).get? key).toList :=
  Table.filter_values_eq_toList Outcome.key
    (fun e he => (filed stage e.1 e.2 ((Table.get?_eq_some_iff _).mpr he)).key) key

theorem outcomes_eq (r : Report) :
    r.outcomes = r.stages.keys.flatMap fun stage => (r.entries stage).values := by
  rw [outcomes, Table.values, Table.keys, List.flatMap_map, List.flatMap_map]
  refine List.flatMap_congr fun e he => ?_
  rw [entries, r.stages.get?_eq_some_iff.mpr he, Option.getD_some]

theorem mem_outcomes_iff {r : Report} {o : Outcome} :
    o ∈ r.outcomes ↔ ∃ stage key, (r.entries stage).get? key = some o := by
  rw [outcomes_eq, List.mem_flatMap]
  constructor
  · rintro ⟨stage, -, there⟩
    obtain ⟨e, he, rfl⟩ := List.mem_map.mp there
    exact ⟨stage, e.1, (Table.get?_eq_some_iff _).mpr he⟩
  · rintro ⟨stage, key, found⟩
    refine ⟨stage, ?_, List.mem_map_of_mem ((Table.get?_eq_some_iff _).mp found)⟩
    by_contra absent
    rw [entries, (r.stages.get?_eq_none_iff stage).mpr absent] at found
    cases found

theorem IsFiled.isConsistent {r : Report} (filed : r.IsFiled) : ∀ o ∈ r.outcomes, o.IsConsistent := by
  intro o member
  obtain ⟨stage, key, found⟩ := mem_outcomes_iff.mp member
  exact (filed stage key o found).consistent

theorem nodup_eraseDups (xs : List String) : xs.eraseDups.Nodup := by
  induction xs using List.reverseRecOn with
  | nil => exact .nil
  | append_singleton xs x ih =>
    rw [eraseDups_concat, comeUp]
    split
    · exact ih
    · next new =>
      refine List.nodup_append.mpr ⟨ih, List.nodup_singleton x, ?_⟩
      rintro k seen _ last rfl
      exact new (List.mem_singleton.mp last ▸ seen)

theorem pairwise_sortKeys (keys : List String) : (sortKeys keys).Pairwise (· ≤ ·) := by
  have trans (a b c : String) (hab : decide (a ≤ b)) (hbc : decide (b ≤ c)) : decide (a ≤ c) :=
    decide_eq_true (String.le_trans (of_decide_eq_true hab) (of_decide_eq_true hbc))
  have total (a b : String) : (decide (a ≤ b) || decide (b ≤ a)) = true := by
    simpa using String.le_total a b
  exact (List.pairwise_mergeSort trans total keys).imp fun h => of_decide_eq_true h

/-- Keys to tell a caller: of the failures and of nothing else, in order, and each once. -/
structure IsKeyList (keys : List String) (failures : List Outcome) : Prop where
  mem_iff : ∀ key, key ∈ keys ↔ ∃ o ∈ failures, o.key = key
  sorted : keys.Pairwise (· ≤ ·)
  nodup : keys.Nodup

theorem isKeyList_failedKeys (r : Report) : IsKeyList r.failedKeys r.failures := by
  have listed : r.failedKeys.Perm (r.failures.map (·.key)).eraseDups := List.mergeSort_perm _ _
  refine ⟨fun key => ?_, pairwise_sortKeys _, listed.nodup_iff.mpr (nodup_eraseDups _)⟩
  rw [listed.mem_iff, List.mem_eraseDups, List.mem_map]

/-- An error that is raised for failures: it has them, and tells their number and keys. -/
def Unsuccessful.Tells (u : Unsuccessful) (failures : List Outcome) : Prop :=
  u.failures = failures ∧ ∃ keys, IsKeyList keys failures ∧
    u.message = s!"{failures.length} task(s) failed on " ++ Text.joinWith ", " keys

theorem raiseFailures_eq (r : Report) :
    r.raiseFailures = if r.isOk then .ok () else .error ⟨r.failureText, r.failures⟩ := rfl

/-- What a report has of the writes that made it. -/
structure Reflects (r : Report) (ws : List (Write γ)) : Prop where
  stages : r.stages.keys = (ws.map Write.stage).eraseDups
  keys : ∀ stage, (r.entries stage).keys = (ws.flatMap (Write.keysIn stage)).eraseDups
  /-- Nothing is shown where nothing was entered. -/
  absent : ∀ stage key, (∀ w ∈ ws, w.written? stage key = none) → r.outcomesAt stage key = []
  /-- What was entered last is shown, in the light of the first result that came for it. -/
  present : ∀ stage key past w later o, ws = past ++ w :: later →
    w.written? stage key = some o → (∀ x ∈ later, x.written? stage key = none) →
    r.outcomesAt stage key = [o.settledBy stage (later.findSome? (Write.carried? stage key))]

theorem reflects {ws : List (Write γ)} (named : ∀ w ∈ ws, w.Named) :
    (history ws empty).Reflects ws where
  stages := by
    rw [stages_history, ← foldl_comeUp]
    rfl
  keys := by
    intro stage
    rw [keys_history, ← foldl_comeUp]
    rfl
  absent := by
    intro stage key unwritten
    rw [(isFiled_history named isFiled_empty).outcomesAt_eq, get?_history unwritten]
    rfl
  present := by
    rintro stage key past w later o rfl written unwritten
    rw [(isFiled_history named isFiled_empty).outcomesAt_eq, ← List.singleton_append,
      history_append, history_append, get?_history unwritten]
    change Option.toList (Option.map _ (((w.apply (history past empty)).entries stage).get? key)) = _
    -- Only an update carries results, and it enters nothing.
    have first : w.carried? stage key = none := by
      cases w with
      | updateFrom s results => simp [Write.written?, Write.rows] at written
      | _ => simp [Write.carried?, Write.carried]
    rw [get?_apply, written, first, Option.some_or, Option.map_some, settledBy_none]
    rfl

/-- Whatever has been written into a report, it shows the outcome that was entered last, or the first
result that came for one that had been dispatched, under each key and in the order in which stages and
keys came up, and every outcome makes sense by its status. An update enters no key and leaves alone what
is not dispatched. Asked for an error, a report raises one exactly if it is not good: with the failures
in that order, and their keys sorted. -/
theorem reflects_history {ws : List (Write γ)} (named : ∀ w ∈ ws, w.Named) :
    let r := history ws empty
    r.Reflects ws ∧ (∀ o ∈ r.outcomes, o.IsConsistent) ∧
      (∀ stage results stage', ((r.updateFrom stage results).entries stage').keys =
        (r.entries stage').keys ∧
        ∀ key o, (r.entries stage').get? key = some o → stage' ≠ stage ∨ o.status ≠ .dispatched →
          ((r.updateFrom stage results).entries stage').get? key = some o) ∧
      r.failures = (r.stages.keys.flatMap fun stage => (r.entries stage).values).filter
        (·.status = .failed) ∧
      (r.raiseFailures = .ok () ↔ r.isOk) ∧
      ∀ why, r.raiseFailures = .error why → why.Tells r.failures := by
  intro r
  refine ⟨reflects named, (isFiled_history named isFiled_empty).isConsistent, ?_, ?_, ?_, ?_⟩
  · intro stage results stage'
    exact ⟨entries_updateFrom r stage results stage', fun _ _ => get?_updateFrom stage results⟩
  · rw [← outcomes_eq]
    rfl
  · rw [raiseFailures_eq]
    cases r.isOk <;> simp
  · intro why raised
    rw [raiseFailures_eq] at raised
    split at raised
    · cases raised
    · obtain rfl := Except.error.inj raised
      exact ⟨rfl, r.failedKeys, isKeyList_failedKeys r, rfl⟩

/-- Of two tasks that were dispatched one could not be issued, and the other is said to have failed and
later to have ended well: it is the first that counts. A task that was skipped is then recorded. -/
theorem reflects_first_result :
    let a : Task := ⟨"a", "host0", .line "true"⟩
    let b : Task := ⟨"b", "host1", .line "true"⟩
    let h : Handle Unit := { tasks := [b, a], results := Table.ofList [("b", .failed b "refused")] }
    let good : Result := ⟨"a", some "host0", some 0, some "", some "", none⟩
    let bad : Result := ⟨"a", some "host0", some 1, some "", some "no\n", none⟩
    let ws : List (Write Unit) := [.recordDispatch "start" h,
      .updateFrom "start" (Table.ofList [("a", bad)]), .recordSkipped "build" ["a"] (some "left out"),
      .updateFrom "start" (Table.ofList [("a", good)]), .record "build" (Table.ofList [("a", good)])]
    let r := history ws empty
    (∀ w ∈ ws, w.Named) ∧ r.stages.keys = ["start", "build"] ∧
      (r.entries "start").keys = ["b", "a"] ∧
      r.outcomesAt "start" "a" = [⟨"start", "a", some "host0", .failed, some 1, some "no"⟩] ∧
      r.outcomesAt "build" "a" = [⟨"build", "a", some "host0", .ok, some 0, none⟩] ∧
      r.outcomesAt "build" "b" = [] ∧
      ∃ why, r.raiseFailures = .error why ∧ why.failures.map (·.key) = ["b", "a"] ∧
        why.message = "2 task(s) failed on a, b" := by
  intro a b h good bad ws r
  have named : ∀ w ∈ ws, w.Named := by decide
  obtain ⟨reflected, -, -, -, sound, raised⟩ := reflects_history named
  have why : r.raiseFailures = .error ⟨r.failureText, r.failures⟩ := by
    rw [raiseFailures_eq, if_neg]
    decide +kernel
  refine ⟨named, reflected.stages, ?_, ?_, ?_, ?_, _, why, ?_, ?_⟩
  · exact (reflected.keys "start").trans (by decide +kernel)
  · exact (reflected.present "start" "a" [] _ _ _ rfl rfl (by decide +kernel)).trans (by decide +kernel)
  · have last : (Write.record "build" (Table.ofList [("a", good)]) : Write Unit).written? "build" "a" =
        some ⟨"build", "a", some "host0", .ok, some 0, none⟩ := by decide +kernel
    exact reflected.present "build" "a" (ws.take 4) _ [] _ rfl last (by simp)
  · exact reflected.absent "build" "b" (by decide +kernel)
  · rw [(raised _ why).1]
    decide +kernel
  · obtain ⟨-, keys, listed, told⟩ := raised _ why
    have named : r.failures.map (·.key) = ["b", "a"] := by decide +kernel
    have perm : keys.Perm ["a", "b"] := by
      refine (List.perm_ext_iff_of_nodup listed.nodup (by decide)).mpr fun key => ?_
      rw [listed.mem_iff, ← List.mem_map, named]
      simp [or_comm]
    have sorted : keys = ["a", "b"] := perm.eq_of_pairwise
      (fun _ _ _ _ ab ba => String.le_antisymm ab ba) listed.sorted (by decide)
    have two : r.failures.length = 2 := by decide +kernel
    rw [told, sorted, two]
    rfl

end Flotilla.Report
