import Flotilla.Proofs.Deploy.Isolation
import Flotilla.Proofs.Report.Store

/-! The two policies side by side. As long as a node has not failed it fares the same under both, so its
first failure is the same, and whether a connection comes later than that can be told from the report of
the run that carries on. The run that leaves failed nodes out is the other without these connections; the
failures that it misses are those of nodes that have failed before. -/
namespace Flotilla

/-- Whether the node of a connection has a failure in a stage before the connection's own. -/
def Report.failsBefore (r : Report) (c : Host.Channel) : Bool :=
  (r.stages.keys.takeWhile (some · ≠ c.label)).any fun stage =>
    c.key.any fun key => (r.outcomesAt stage key).any (·.status = .failed)

namespace Report

theorem IsKeyList.eq {keys keys' : List String} {failures failures' : List Outcome}
    (h : IsKeyList keys failures) (h' : IsKeyList keys' failures')
    (same : ∀ key, (∃ o ∈ failures, o.key = key) ↔ ∃ o ∈ failures', o.key = key) : keys = keys' := by
  have perm : keys.Perm keys' := (List.perm_ext_iff_of_nodup h.nodup h'.nodup).mpr fun key => by
    rw [h.mem_iff, h'.mem_iff, same]
  exact perm.eq_of_pairwise (fun _ _ _ _ ab ba => String.le_antisymm ab ba) h.sorted h'.sorted

theorem isOk_iff (r : Report) : r.isOk ↔ r.failedKeys = [] := by
  have listed := (isKeyList_failedKeys r).mem_iff
  rw [isOk, List.isEmpty_iff, List.eq_nil_iff_forall_not_mem, List.eq_nil_iff_forall_not_mem]
  refine ⟨fun none key member => ?_, fun none o member => none o.key ((listed _).mpr ⟨o, member, rfl⟩)⟩
  obtain ⟨o, failure, -⟩ := (listed key).mp member
  exact none o failure

theorem mem_failures {r : Report} {o : Outcome} : o ∈ r.failures ↔
    ∃ stage ∈ r.stages.keys, o ∈ r.outcomesAt stage o.key ∧ o.status = .failed := by
  simp only [failures, failuresOf, outcomesOf, outcomes_eq, outcomesAt, List.mem_filter, List.mem_flatMap,
    decide_eq_true_eq, and_true, ← exists_and_right, and_assoc]

end Report

namespace Deploy
namespace Rollout
variable (x : Rollout)

def withPolicy (policy : Policy) : Rollout := { x with pipeline := { x.pipeline with policy } }

def report (policy : Policy) : Report :=
  .enterAll .empty ((x.withPolicy policy).sheets [] x.pipeline.steps)

variable {x}

theorem isOut_carryOn (past : List Step) (n : Node) : (x.withPolicy .carryOn).isOut past n = false := by
  simp [isOut, withPolicy]

theorem isOut_skipFailed (past : List Step) (n : Node) :
    (x.withPolicy .skipFailed).isOut past n = past.any (x.fails n) := by
  simp [isOut, withPolicy]
  rfl

theorem keys_report (policy : Policy) :
    (x.report policy).stages.keys = x.pipeline.steps.map Step.name :=
  keys_sheets (x := x.withPolicy policy) x.pipeline.nodup_steps

theorem known_of_outcomesAt {policy : Policy} {before later : List Step} {s : Step}
    (cut : x.pipeline.steps = before ++ s :: later) {key : String} {o : Report.Outcome}
    (there : o ∈ (x.report policy).outcomesAt s.name key) : key ∈ x.nodes.map (·.name) := by
  by_contra stranger
  rw [report, cut, outcomesAt_sheet (cut ▸ x.pipeline.nodup_steps),
    get?_sheet_of_notMem (x := x.withPolicy policy) stranger] at there
  cases there

theorem key_of_outcome? {n : Node} {s : Step} {o : Report.Outcome} (h : x.outcome? n s = some o) :
    o.key = n.name := by
  obtain ⟨t, task, rfl⟩ := Option.map_eq_some_iff.mp h
  exact (Executor.key_result _ _ _ t).trans (key_of_task task).1

section
variable (names : (x.nodes.map (·.name)).Nodup)
include names

theorem outcomesAt_report {n : Node} (hn : n ∈ x.nodes) (policy : Policy) {before later : List Step}
    {s : Step} (cut : x.pipeline.steps = before ++ s :: later) :
    (x.report policy).outcomesAt s.name n.name =
      if (x.withPolicy policy).isOut before n then [.skipped s.name n.name (some reason)]
      else (x.outcome? n s).toList :=
  outcomesAt_steps (x := x.withPolicy policy) names hn cut

theorem outcomesAt_report_eq {n : Node} (hn : n ∈ x.nodes) {before later : List Step} {s : Step}
    (cut : x.pipeline.steps = before ++ s :: later) (fine : before.any (x.fails n) = false) :
    (x.report .skipFailed).outcomesAt s.name n.name =
      (x.report .carryOn).outcomesAt s.name n.name := by
  rw [outcomesAt_report names hn _ cut, outcomesAt_report names hn _ cut, isOut_skipFailed, isOut_carryOn,
    fine]

theorem fails_report {n : Node} (hn : n ∈ x.nodes) {s : Step} (hs : s ∈ x.pipeline.steps) :
    ((x.report .carryOn).outcomesAt s.name n.name).any (·.status = .failed) = x.fails n s := by
  obtain ⟨before, later, cut⟩ := List.append_of_mem hs
  rw [outcomesAt_report names hn _ cut, isOut_carryOn, if_neg Bool.false_ne_true, fails]
  cases x.outcome? n s <;> simp

theorem failsBefore_channel {n : Node} (hn : n ∈ x.nodes) {before later : List Step} {s : Step}
    (cut : x.pipeline.steps = before ++ s :: later) :
    (x.report .carryOn).failsBefore (s.channel n) = before.any (x.fails n) := by
  have distinct := x.pipeline.nodup_steps
  rw [cut, List.nodup_append] at distinct
  have earlier : ((before ++ s :: later).map Step.name).takeWhile (some · ≠ (s.channel n).label) =
      before.map Step.name := by
    rw [List.map_append, List.takeWhile_append_of_pos, List.map_cons, List.takeWhile_cons_of_neg,
      List.append_nil]
    · simp [Step.channel]
    · refine List.forall_mem_map.mpr fun t ht => decide_eq_true fun same => ?_
      exact distinct.2.2 t ht s List.mem_cons_self (Step.name_injective (Option.some.inj same))
  rw [Report.failsBefore, keys_report, cut, earlier, List.any_map]
  refine Bool.eq_iff_iff.mpr ?_
  rw [List.any_eq_true, List.any_eq_true]
  refine exists_congr fun t => and_congr_right fun ht => ?_
  have known : t ∈ x.pipeline.steps := cut ▸ List.mem_append_left _ ht
  rw [← fails_report names hn known]
  rfl

theorem passage?_skipFailed {n : Node} (hn : n ∈ x.nodes) {past later : List Step} {s : Step}
    (cut : x.pipeline.steps = past ++ s :: later) :
    (x.withPolicy .skipFailed).passage? past s n = ((x.withPolicy .carryOn).passage? past s n).filter
      fun q => !(x.report .carryOn).failsBefore q.channel := by
  have tried : (x.withPolicy .carryOn).passage? past s n =
      (x.task? s n).bind (x.pipeline.executor.passage? x.hosts (some s.name)) := by
    rw [passage?, isOut_carryOn]
    rfl
  have taken : (x.withPolicy .skipFailed).passage? past s n = if past.any (x.fails n) then none else
      (x.task? s n).bind (x.pipeline.executor.passage? x.hosts (some s.name)) := by
    rw [passage?, isOut_skipFailed]
    rfl
  rw [tried, taken]
  cases given : (x.task? s n).bind (x.pipeline.executor.passage? x.hosts (some s.name)) with
  | none => simp
  | some q =>
    have channel : q.channel = s.channel n := channel_of_passage? (tried.trans given)
    rw [Option.filter_some, channel, failsBefore_channel names hn cut]
    cases past.any (x.fails n) <;> rfl

theorem allPassages_skipFailed {past steps : List Step} (cut : x.pipeline.steps = past ++ steps) :
    (x.withPolicy .skipFailed).allPassages past steps =
      ((x.withPolicy .carryOn).allPassages past steps).filter
        fun q => !(x.report .carryOn).failsBefore q.channel := by
  induction steps generalizing past with
  | nil => rfl
  | cons s r ih =>
    have step : (x.withPolicy .skipFailed).passages past s =
        ((x.withPolicy .carryOn).passages past s).filter
          fun q => !(x.report .carryOn).failsBefore q.channel := by
      rw [passages_eq_filterMap, passages_eq_filterMap, List.filter_filterMap]
      exact List.filterMap_congr fun n hn => passage?_skipFailed names hn cut
    rw [allPassages, allPassages, List.filter_append, step, ih (by simpa using cut)]

/-- Under either policy there are failures of the nodes that fail in some step, and of no others: the
first one of a node is there in any case. -/
theorem exists_failure (policy : Policy) (key : String) :
    (∃ o ∈ (x.report policy).failures, o.key = key) ↔
      ∃ n ∈ x.nodes, n.name = key ∧ ∃ s ∈ x.pipeline.steps, x.fails n s := by
  constructor
  · rintro ⟨o, failure, rfl⟩
    obtain ⟨stage, listed, there, failed⟩ := Report.mem_failures.mp failure
    rw [keys_report] at listed
    obtain ⟨s, hs, rfl⟩ := List.mem_map.mp listed
    obtain ⟨before, later, cut⟩ := List.append_of_mem hs
    obtain ⟨n, hn, name⟩ := List.mem_map.mp (known_of_outcomesAt cut there)
    refine ⟨n, hn, name, s, hs, ?_⟩
    rw [← name, outcomesAt_report names hn _ cut] at there
    split at there
    · obtain rfl := List.mem_singleton.mp there
      cases failed
    · rw [fails, Option.mem_toList.mp there]
      exact decide_eq_true failed
  · rintro ⟨n, hn, rfl, s, hs, failing⟩
    -- Up to its first failure the node takes part under either policy.
    obtain ⟨j, first⟩ : ∃ j, x.pipeline.steps.find? (x.fails n) = some j :=
      Option.isSome_iff_exists.mp (List.find?_isSome.mpr ⟨s, hs, failing⟩)
    obtain ⟨fails, before, later, cut, fine⟩ := List.find?_eq_some_iff_append.mp first
    obtain ⟨o, given, failed⟩ := (Option.any_eq_true _ _).mp fails
    have fine : ∀ t ∈ before, x.fails n t = false := by simpa using fine
    have there := outcomesAt_report names hn policy cut
    rw [isOut_eq_false (x := x.withPolicy policy) fine, if_neg Bool.false_ne_true, given] at there
    have mine := key_of_outcome? given
    refine ⟨o, Report.mem_failures.mpr ⟨j.name, ?_, ?_, of_decide_eq_true failed⟩, mine⟩
    · rw [keys_report, cut]
      simp
    · rw [mine, there]
      exact List.mem_singleton_self o

theorem failedKeys_report : (x.report .skipFailed).failedKeys = (x.report .carryOn).failedKeys :=
  (Report.isKeyList_failedKeys _).eq (Report.isKeyList_failedKeys _) fun key => by
    rw [exists_failure names, exists_failure names]

end

end Rollout

end Deploy
end Flotilla
