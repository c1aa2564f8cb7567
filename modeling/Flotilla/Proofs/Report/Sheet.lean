import Mathlib.Data.List.Basic
import Flotilla.Report.Basic

namespace Flotilla.Report
open Executor

variable {γ : Type}

structure Sheet where
  stage : String
  rows : List (String × Outcome)

def enter (r : Report) (s : Sheet) : Report := r.update s.stage (·.putAll s.rows)

def enterAll (r : Report) (sheets : List Sheet) : Report := sheets.foldl enter r

def Sheet.ofResults (stage : String) (results : Results) : Sheet :=
  ⟨stage, (sortKeys results.keys).filterMap fun key =>
    (results.get? key).map fun x => (key, .ofResult stage x)⟩

def Sheet.ofTasks (stage : String) (failed : Results) (tasks : List Task) : Sheet :=
  ⟨stage, tasks.map fun t => (t.key, standing stage failed t)⟩

def Sheet.ofSkipped (stage : String) (keys : List String) (reason : Option String) : Sheet :=
  ⟨stage, keys.map fun key => (key, .skipped stage key reason)⟩

theorem record_eq_enter (r : Report) (stage : String) (results : Results) :
    r.record stage results = r.enter (.ofResults stage results) := by
  rw [record, enter, Sheet.ofResults]
  congr 1
  funext es
  rw [Table.putAll, List.foldl_filterMap]
  congr 1
  funext es key
  cases results.get? key <;> rfl

theorem recordDispatch_eq_enter (r : Report) (stage : String) (h : Handle γ) :
    r.recordDispatch stage h = r.enter (.ofTasks stage h.failed h.tasks) := by
  rw [recordDispatch, enter, Sheet.ofTasks]
  congr 1
  funext es
  exact Table.foldl_put_eq_putAll _ _ _ _

theorem recordSkipped_eq_enter (r : Report) (stage : String) (keys : List String)
    (reason : Option String) :
    r.recordSkipped stage keys reason = r.enter (.ofSkipped stage keys reason) := by
  rw [recordSkipped, enter, Sheet.ofSkipped]
  congr 1
  funext es
  exact Table.foldl_put_eq_putAll _ _ _ _

theorem enter_enter (r : Report) (stage : String) (rows rows' : List (String × Outcome)) :
    (r.enter ⟨stage, rows⟩).enter ⟨stage, rows'⟩ = r.enter ⟨stage, rows ++ rows'⟩ := by
  rw [enter, enter, update_update, enter]
  congr 1
  funext es
  exact (Table.putAll_append es rows rows').symm

theorem keys_ofResults (stage : String) (results : Results) :
    (Sheet.ofResults stage results).rows.map (·.1) = sortKeys results.keys := by
  rw [Sheet.ofResults, List.map_filterMap]
  have each : ∀ key ∈ sortKeys results.keys,
      ((results.get? key).map fun x => (key, Outcome.ofResult stage x)).map (·.1) = some key := by
    intro key hk
    have member : key ∈ results.keys := by simpa [sortKeys] using hk
    obtain ⟨x, found⟩ := (results.mem_keys_iff key).mp member
    rw [found]
    rfl
  rw [List.filterMap_congr each, List.filterMap_some]

def Named (results : Results) : Prop := ∀ key x, results.get? key = some x → x.key = key

theorem named_iff (results : Results) :
    Named results ↔ ∀ e ∈ results.entries, e.2.key = e.1 := by
  simp only [Named, Table.get?_eq_some_iff, Prod.forall]

instance (results : Results) : Decidable (Named results) := decidable_of_iff' _ (named_iff results)

theorem named_ofResults {stage : String} {results : Results} (h : Named results) :
    ∀ row ∈ (Sheet.ofResults stage results).rows, row.2.key = row.1 := by
  intro row member
  obtain ⟨key, -, made⟩ := List.mem_filterMap.mp member
  obtain ⟨x, found, rfl⟩ := Option.map_eq_some_iff.mp made
  exact h key x found

theorem named_ofSkipped (stage : String) (keys : List String) (reason : Option String) :
    ∀ row ∈ (Sheet.ofSkipped stage keys reason).rows, row.2.key = row.1 := by
  intro row member
  obtain ⟨key, -, rfl⟩ := List.mem_map.mp member
  rfl

theorem get?_putAll_ofResults (stage : String) (results : Results) (es : Table String Outcome)
    (key : String) : (es.putAll (Sheet.ofResults stage results).rows).get? key =
      ((results.get? key).map (Outcome.ofResult stage)).or (es.get? key) := by
  have keys := keys_ofResults stage results
  have listed : (sortKeys results.keys).Perm results.keys := List.mergeSort_perm _ _
  have distinct : ((Sheet.ofResults stage results).rows.map (·.1)).Nodup :=
    keys ▸ listed.nodup_iff.mpr results.nodup
  cases found : results.get? key with
  | none =>
    rw [results.get?_eq_none_iff, ← listed.mem_iff, ← keys] at found
    exact Table.get?_putAll_of_notMem found es
  | some x =>
    have member : key ∈ sortKeys results.keys :=
      listed.mem_iff.mpr ((results.mem_keys_iff key).mpr ⟨x, found⟩)
    exact Table.get?_putAll_of_mem distinct
      (List.mem_filterMap.mpr ⟨key, member, by rw [found]; rfl⟩) es

theorem get?_putAll_ofSkipped (stage : String) (keys : List String) (reason : Option String)
    (es : Table String Outcome) (key : String) :
    (es.putAll (Sheet.ofSkipped stage keys reason).rows).get? key =
      if key ∈ keys then some (.skipped stage key reason) else es.get? key :=
  Table.get?_putAll_map keys (fun key => Outcome.skipped stage key reason) es key

def outcomesAt (r : Report) (stage key : String) : List Outcome :=
  (r.outcomesOf (some stage)).filter (·.key = key)

theorem keys_enter (r : Report) (s : Sheet) :
    (r.enter s).stages.keys = if s.stage ∈ r.stages.keys then r.stages.keys
      else r.stages.keys ++ [s.stage] := Table.keys_put _ _ _

theorem entries_enter (r : Report) (s : Sheet) (stage : String) :
    (r.enter s).entries stage =
      if stage = s.stage then (r.entries stage).putAll s.rows else r.entries stage := by
  rw [enter, update, entries, Table.get?_put]
  split
  · next same => rw [same]; rfl
  · rfl

theorem keys_enterAll_of_nodup {r : Report} {sheets : List Sheet}
    (fresh : (r.stages.keys ++ sheets.map (·.stage)).Nodup) :
    (r.enterAll sheets).stages.keys = r.stages.keys ++ sheets.map (·.stage) := by
  induction sheets generalizing r with
  | nil => exact (List.append_nil _).symm
  | cons s sheets ih =>
    have first : (r.enter s).stages.keys = r.stages.keys ++ [s.stage] := by
      rw [keys_enter, if_neg]
      intro member
      exact (List.nodup_append.mp fresh).2.2 _ member _ (by simp) rfl
    have rest := ih (r := r.enter s) (by simpa [first] using fresh)
    rw [enterAll, List.foldl_cons, ← enterAll, rest, first, List.map_cons, List.append_assoc,
      List.singleton_append]

theorem keys_enterAll_empty {sheets : List Sheet} (distinct : (sheets.map (·.stage)).Nodup) :
    (empty.enterAll sheets).stages.keys = sheets.map (·.stage) :=
  keys_enterAll_of_nodup (r := empty) distinct

theorem entries_enterAll_of_notMem {sheets : List Sheet} {stage : String}
    (h : stage ∉ sheets.map (·.stage)) (r : Report) :
    (r.enterAll sheets).entries stage = r.entries stage := by
  induction sheets generalizing r with
  | nil => rfl
  | cons s sheets ih =>
    rw [List.map_cons, List.mem_cons, not_or] at h
    rw [enterAll, List.foldl_cons, ← enterAll, ih h.2, entries_enter, if_neg h.1]

theorem entries_enterAll {sheets : List Sheet} (distinct : (sheets.map (·.stage)).Nodup) {s : Sheet}
    (hs : s ∈ sheets) (r : Report) :
    (r.enterAll sheets).entries s.stage = (r.entries s.stage).putAll s.rows := by
  induction sheets generalizing r with
  | nil => cases hs
  | cons t sheets ih =>
    rw [List.map_cons, List.nodup_cons] at distinct
    rw [enterAll, List.foldl_cons, ← enterAll]
    cases List.mem_cons.mp hs with
    | inl first =>
      subst first
      rw [entries_enterAll_of_notMem distinct.1, entries_enter, if_pos rfl]
    | inr later =>
      rw [ih distinct.2 later, entries_enter, if_neg]
      intro same
      exact distinct.1 (same ▸ List.mem_map_of_mem later)

end Flotilla.Report
