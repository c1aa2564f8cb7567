import Flotilla.Deploy.Pipeline
import Flotilla.Proofs.Fleet.Keys
import Flotilla.Proofs.Report.Sheet
import Flotilla.Proofs.Session.Passage

namespace Flotilla

namespace Deploy

structure Rollout where
  pipeline : Pipeline
  built : Archives
  hosts : Host.Script

namespace Rollout
variable (x : Rollout)

def nodes : List Node := x.pipeline.plan.fleet.nodes

def task? (s : Step) (n : Node) : Option Executor.Task :=
  (x.pipeline.plan.command x.built n s).map fun c => ⟨n.name, n.address, .command c⟩

def outcome? (n : Node) (s : Step) : Option Report.Outcome :=
  (x.task? s n).map fun t => .ofResult s.name (x.pipeline.executor.result x.hosts (some s.name) t)

def fails (n : Node) (s : Step) : Bool := (x.outcome? n s).any (·.status = .failed)

def isOut (past : List Step) (n : Node) : Bool :=
  x.pipeline.policy = .skipFailed && past.any (x.fails n)

def tasks (past : List Step) (s : Step) : List Executor.Task :=
  (x.nodes.filter fun n => !x.isOut past n).filterMap (x.task? s)

def skipped (past : List Step) : List String := (x.nodes.filter (x.isOut past)).map (·.name)

def results (past : List Step) (s : Step) : Executor.Results :=
  x.pipeline.executor.results x.hosts (some s.name) (x.tasks past s)

def reason : String := "failed an earlier stage"

def sheet (past : List Step) (s : Step) : Report.Sheet :=
  ⟨s.name, (Report.Sheet.ofSkipped s.name (x.skipped past) (some reason)).rows ++
    (Report.Sheet.ofResults s.name (x.results past s)).rows⟩

/-- The sheets of the steps that follow those in `past`. -/
def sheets : List Step → List Step → List Report.Sheet
  | _, [] => []
  | past, s :: r => x.sheet past s :: sheets (past ++ [s]) r

def passages (past : List Step) (s : Step) : List Passage :=
  x.pipeline.executor.passages x.hosts (some s.name) (x.tasks past s)

def allPassages : List Step → List Step → List Passage
  | _, [] => []
  | past, s :: r => x.passages past s ++ allPassages (past ++ [s]) r

def failedKeys (past : List Step) (s : Step) : List String :=
  Report.sortKeys ((x.results past s).filter fun _ r => !r.isOk).keys

end Rollout

namespace Rollout
variable {x : Rollout}

theorem isOut_append (x : Rollout) (past : List Step) (s : Step) (n : Node) :
    x.isOut (past ++ [s]) n =
      (x.isOut past n || (x.pipeline.policy = .skipFailed && x.fails n s)) := by
  simp [isOut, Bool.and_or_distrib_left]

theorem key_of_task {s : Step} {n : Node} {t : Executor.Task} (h : x.task? s n = some t) :
    t.key = n.name ∧ t.isProper := by
  obtain ⟨c, -, rfl⟩ := Option.map_eq_some_iff.mp h
  exact ⟨rfl, rfl⟩

theorem mem_tasks {past : List Step} {s : Step} {t : Executor.Task} :
    t ∈ x.tasks past s ↔ ∃ n ∈ x.nodes, x.isOut past n = false ∧ x.task? s n = some t := by
  simp [tasks, and_assoc]

section
variable (names : (x.nodes.map (·.name)).Nodup)
include names

theorem nodup_tasks (past : List Step) (s : Step) : ((x.tasks past s).map (·.key)).Nodup := by
  rw [List.Nodup, List.pairwise_map] at names ⊢
  rw [tasks, List.pairwise_filterMap]
  refine (names.sublist List.filter_sublist).imp fun apart t ht u hu => ?_
  rw [(key_of_task ht).1, (key_of_task hu).1]
  exact apart

theorem eq_of_name {n m : Node} (hn : n ∈ x.nodes) (hm : m ∈ x.nodes) (h : n.name = m.name) :
    n = m := List.inj_on_of_nodup_map names hn hm h

theorem get?_results {n : Node} (hn : n ∈ x.nodes) (past : List Step) (s : Step) :
    (x.results past s).get? n.name = if x.isOut past n then none else
      (x.task? s n).map (x.pipeline.executor.result x.hosts (some s.name)) := by
  have only {t : Executor.Task} (ht : t ∈ x.tasks past s) (key : t.key = n.name) :
      x.isOut past n = false ∧ x.task? s n = some t := by
    obtain ⟨m, hm, stays, task⟩ := mem_tasks.mp ht
    rw [(key_of_task task).1] at key
    obtain rfl := eq_of_name names hm hn key
    exact ⟨stays, task⟩
  by_cases listed : ∃ t ∈ x.tasks past s, t.key = n.name
  · obtain ⟨t, ht, key⟩ := listed
    obtain ⟨stays, task⟩ := only ht key
    rw [← key, results, Executor.get?_results_of_mem (nodup_tasks names past s) ht, stays, task]
    rfl
  · have absent : n.name ∉ (x.tasks past s).map (·.key) := by
      rintro member
      obtain ⟨t, ht, key⟩ := List.mem_map.mp member
      exact listed ⟨t, ht, key⟩
    rw [results, Executor.get?_results_of_notMem absent]
    cases out : x.isOut past n with
    | true => rfl
    | false =>
      cases task : x.task? s n with
      | none => rfl
      | some t => exact absurd ⟨t, mem_tasks.mpr ⟨n, hn, out, task⟩, (key_of_task task).1⟩ listed

theorem mem_failedKeys {n : Node} (hn : n ∈ x.nodes) (past : List Step) (s : Step) :
    n.name ∈ x.failedKeys past s ↔ x.isOut past n = false ∧ x.fails n s := by
  have listed : n.name ∈ x.failedKeys past s ↔
      ∃ r, ((x.results past s).get? n.name).filter (fun r => !r.isOk) = some r := by
    rw [failedKeys, Report.sortKeys, (List.mergeSort_perm _ _).mem_iff, Table.mem_keys_iff,
      Table.get?_filter]
  rw [listed, get?_results names hn]
  cases out : x.isOut past n with
  | true => simp
  | false =>
    cases task : x.task? s n with
    | none => simp [fails, outcome?, task]
    | some t =>
      simp [fails, outcome?, task, Option.filter_eq_some_iff, Report.Outcome.ofResult]

end

end Rollout

end Deploy
end Flotilla
