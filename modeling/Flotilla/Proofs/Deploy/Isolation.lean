import Flotilla.Proofs.Deploy.FailurePolicy

/-! One node's fare does not depend on the others'. Whether a node takes part in a step, what it is sent
there, and what the report says of it all come from the node's own answers: hosts that answer alike for
it come to the same for it. -/
namespace Flotilla.Deploy

/-- Of what comes of the members of a list, each under the member's own key, one key picks out what
comes of one member. -/
theorem filter_filterMap_eq_toList {α β κ : Type} [DecidableEq κ] {key : α → κ} {key' : β → κ}
    {f : α → Option β} (kept : ∀ {a b}, f a = some b → key' b = key a) {xs : List α}
    (distinct : (xs.map key).Nodup) {a : α} (ha : a ∈ xs) :
    (xs.filterMap f).filter (key' · = key a) = (f a).toList := by
  rw [List.filterMap_eq_flatMap_toList]
  exact filter_flatMap_eq _ (fun a b hb => kept (Option.mem_toList.mp hb)) distinct ha

namespace Rollout

def passage? (x : Rollout) (past : List Step) (s : Step) (n : Node) : Option Passage :=
  if x.isOut past n then none
  else (x.task? s n).bind (x.pipeline.executor.passage? x.hosts (some s.name))

def nodePassages (x : Rollout) (n : Node) : List Step → List Step → List Passage
  | _, [] => []
  | past, s :: r => (x.passage? past s n).toList ++ nodePassages x n (past ++ [s]) r

variable {x : Rollout}

theorem channel_of_passage? {past : List Step} {s : Step} {n : Node} {p : Passage}
    (h : x.passage? past s n = some p) : p.channel = s.channel n := by
  unfold passage? at h
  split at h
  · cases h
  · obtain ⟨t, task, made⟩ := Option.bind_eq_some_iff.mp h
    obtain ⟨c, -, rfl⟩ := Option.map_eq_some_iff.mp task
    obtain rfl := Option.some.inj made
    rfl

theorem key_of_passage? {past : List Step} {s : Step} {n : Node} {p : Passage}
    (h : x.passage? past s n = some p) : p.channel.key = some n.name := by
  rw [channel_of_passage? h]
  rfl

theorem passages_eq_filterMap (past : List Step) (s : Step) :
    x.passages past s = x.nodes.filterMap (x.passage? past s) := by
  rw [passages, Executor.passages, tasks, List.filterMap_filterMap, List.filterMap_filter]
  refine List.filterMap_congr fun n _ => ?_
  unfold passage?
  cases x.isOut past n <;> rfl

theorem filter_allPassages (names : (x.nodes.map (·.name)).Nodup) {n : Node} (hn : n ∈ x.nodes)
    (past steps : List Step) :
    (x.allPassages past steps).filter (·.channel.key = some n.name) =
      x.nodePassages n past steps := by
  have keys : (x.nodes.map fun m => some m.name).Nodup := by
    have mapped := names.map fun _ _ => Option.some.inj
    rwa [List.map_map] at mapped
  induction steps generalizing past with
  | nil => rfl
  | cons s r ih =>
    rw [allPassages, List.filter_append, ih, nodePassages, passages_eq_filterMap,
      filter_filterMap_eq_toList key_of_passage? keys hn]

def withHosts (x : Rollout) (hosts : Host.Script) : Rollout := { x with hosts }

def Agrees (x : Rollout) (hosts : Host.Script) (n : Node) : Prop :=
  ∀ s ∈ x.pipeline.steps, (x.task? s n).isSome →
    hosts.behaviour (s.channel n) = x.hosts.behaviour (s.channel n)

section
variable {hosts : Host.Script} {n : Node} (agree : x.Agrees hosts n)
include agree

theorem behaviour_withHosts {s : Step} (hs : s ∈ x.pipeline.steps) {t : Executor.Task}
    (task : x.task? s n = some t) :
    hosts.behaviour (Executor.channel (some s.name) t) =
      x.hosts.behaviour (Executor.channel (some s.name) t) := by
  have same := agree s hs (by rw [task]; rfl)
  obtain ⟨c, -, rfl⟩ := Option.map_eq_some_iff.mp task
  exact same

theorem outcome?_withHosts {s : Step} (hs : s ∈ x.pipeline.steps) :
    (x.withHosts hosts).outcome? n s = x.outcome? n s := by
  refine Option.map_congr fun t task => ?_
  have same := behaviour_withHosts agree hs task
  simp only [withHosts, Executor.result, Executor.outcome, same]

theorem isOut_withHosts {past : List Step} (h : past ⊆ x.pipeline.steps) :
    (x.withHosts hosts).isOut past n = x.isOut past n := by
  have same : past.any ((x.withHosts hosts).fails n) = past.any (x.fails n) := by
    rw [Bool.eq_iff_iff, List.any_eq_true, List.any_eq_true]
    refine exists_congr fun s => and_congr_right fun hs => ?_
    rw [fails, fails, outcome?_withHosts agree (h hs)]
  rw [isOut, isOut, same]
  rfl

theorem passage?_withHosts {past : List Step} (h : past ⊆ x.pipeline.steps) {s : Step}
    (hs : s ∈ x.pipeline.steps) : (x.withHosts hosts).passage? past s n = x.passage? past s n := by
  rw [passage?, passage?, isOut_withHosts agree h]
  congr 1
  refine Option.bind_congr fun t task => ?_
  have same := behaviour_withHosts agree hs task
  simp only [withHosts, Executor.passage?, same]

theorem nodePassages_withHosts {past steps : List Step} (h : past ++ steps ⊆ x.pipeline.steps) :
    (x.withHosts hosts).nodePassages n past steps = x.nodePassages n past steps := by
  induction steps generalizing past with
  | nil => rfl
  | cons s r ih =>
    have known : past ⊆ x.pipeline.steps := fun t ht => h (List.mem_append_left _ ht)
    have later : past ++ [s] ++ r ⊆ x.pipeline.steps := by simpa using h
    rw [nodePassages, nodePassages, passage?_withHosts agree known (h (by simp)), ih later]

theorem outcomesAt_withHosts (names : (x.nodes.map (·.name)).Nodup) (hn : n ∈ x.nodes)
    (stage : String) :
    (Report.empty.enterAll ((x.withHosts hosts).sheets [] x.pipeline.steps)).outcomesAt stage n.name =
      (Report.empty.enterAll (x.sheets [] x.pipeline.steps)).outcomesAt stage n.name := by
  by_cases active : stage ∈ x.pipeline.steps.map Step.name
  · obtain ⟨s, hs, rfl⟩ := List.mem_map.mp active
    obtain ⟨before, later, cut⟩ := List.append_of_mem hs
    have known : before ⊆ x.pipeline.steps := fun t ht => cut ▸ List.mem_append_left _ ht
    have other := outcomesAt_steps (x := x.withHosts hosts) names hn cut
    rw [isOut_withHosts agree known, outcome?_withHosts agree hs] at other
    exact other.trans (outcomesAt_steps names hn cut).symm
  · have absent (y : Rollout) : stage ∉ (y.sheets [] x.pipeline.steps).map (·.stage) := by
      rwa [stages_sheets]
    rw [Report.outcomesAt, Report.outcomesAt, Report.outcomesOf, Report.outcomesOf,
      Report.entries_enterAll_of_notMem (absent _), Report.entries_enterAll_of_notMem (absent _)]

end

end Rollout

end Flotilla.Deploy
