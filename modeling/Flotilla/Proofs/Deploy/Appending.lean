import Flotilla.Proofs.Deploy.Account
import Flotilla.Proofs.Report.Store

namespace Flotilla
namespace Report

/-- A report with what another one has entered over it. Of the keys that both have, the place is that of
the earlier report and the outcome that of the later one. -/
structure Overlaid (r f r' : Report) : Prop where
  shows : ∀ stage key, (r'.entries stage).get? key =
    ((f.entries stage).get? key).or ((r.entries stage).get? key)
  stages : r'.stages.keys = r.stages.keys ++ f.stages.keys.filter (· ∉ r.stages.keys)
  keys : ∀ stage, (r'.entries stage).keys =
    (r.entries stage).keys ++ (f.entries stage).keys.filter (· ∉ (r.entries stage).keys)

theorem comeUp_append_filter (ks js : List String) (k : String) :
    comeUp (ks ++ js.filter (· ∉ ks)) k = ks ++ (comeUp js k).filter (· ∉ ks) := by
  unfold comeUp
  by_cases before : k ∈ ks <;> by_cases now : k ∈ js <;> simp [before, now]

theorem foldl_comeUp_append_filter (ks js new : List String) :
    new.foldl comeUp (ks ++ js.filter (· ∉ ks)) = ks ++ (new.foldl comeUp js).filter (· ∉ ks) := by
  induction new generalizing js with
  | nil => rfl
  | cons k new ih => rw [List.foldl_cons, comeUp_append_filter, ih, List.foldl_cons]

namespace Overlaid
variable {r f r' : Report}

theorem empty (r : Report) : Overlaid r .empty r where
  shows _ _ := (Option.none_or).symm
  stages := (List.append_nil _).symm
  keys _ := (List.append_nil _).symm

theorem enter (h : Overlaid r f r') (s : Sheet) : Overlaid r (f.enter s) (r'.enter s) where
  shows stage key := by
    rw [entries_enter, entries_enter]
    split
    · rw [get?_putAll, get?_putAll, h.shows, Option.or_assoc]
    · exact h.shows stage key
  stages := by
    rw [keys_enter, keys_enter, h.stages]
    exact comeUp_append_filter _ _ _
  keys stage := by
    rw [entries_enter, entries_enter]
    split
    · rw [Table.keys_putAll, Table.keys_putAll, h.keys]
      exact foldl_comeUp_append_filter _ _ _
    · exact h.keys stage

theorem enterAll (h : Overlaid r f r') (sheets : List Sheet) :
    Overlaid r (f.enterAll sheets) (r'.enterAll sheets) := by
  induction sheets generalizing f r' with
  | nil => exact h
  | cons s sheets ih => exact ih (h.enter s)

end Overlaid
end Report

namespace Deploy

/-- Two runs against the same hosts, one into a fresh report and one into any other. The fresh report has
the stages of the run, and the other is what it was with the fresh one over it: outcomes of the run are
shown in place of what was there, all others stay, and stages and keys that are new come last. -/
theorem Pipeline.run_overlays (p : Pipeline) {g h : Progress}
    (checked : Fleet.checkNodes p.plan.fleet.nodes = .ok ()) (built : h.built = g.built)
    (hosts : h.session.hosts = g.session.hosts)
    (ready : g.built.source.isSome ∧ g.built.inputs.isSome)
    (counted : g.session.Counted) (counted' : h.session.Counted)
    (speaks : g.session.hosts.Speaks) (directory : Option Value) (earlier : Report) :
    ∃ fresh report f f', exec (p.run directory .empty) g = (.ok fresh, f) ∧
      exec (p.run directory earlier) h = (.ok report, f') ∧
      fresh.stages.keys = p.steps.map Step.name ∧ earlier.Overlaid fresh report := by
  let x : Rollout := ⟨p, g.built, g.session.hosts⟩
  have names : (x.nodes.map (·.name)).Nodup :=
    Fleet.nodup_names (Fleet.hasOrdinals_of_checkNodes checked)
  obtain ⟨_, ran, -⟩ := exec_run_of_built (x := x) names speaks rfl ready rfl counted.after directory .empty
  obtain ⟨_, ran', -⟩ := exec_run_of_built (x := x) names speaks built ready hosts counted'.after
    directory earlier
  exact ⟨_, _, _, _, ran, ran', Rollout.keys_sheets p.nodup_steps,
    (Report.Overlaid.empty earlier).enterAll _⟩

/-- Before the run, the second of two nodes has been built and the first has not, and a probe has left an
outcome. Now it is the second that does not build. -/
theorem Pipeline.run_overlays_stale_outcomes :
    let nodes : List Node := [⟨0, "a"⟩, ⟨1, "b"⟩]
    let t : Topology := ⟨"a:27736", 2⟩
    let scenario : Scenario := ⟨.standard, 10, 100, .text "inputs"⟩
    let fleet : Fleet := ⟨nodes, t, scenario, nodes.map (Fleet.place t scenario · Fleet.firstSlot)⟩
    let p : Pipeline := ⟨⟨fleet, "dir", none⟩, ⟨⟨none, none, none⟩, []⟩, ".", false, .skipFailed⟩
    let hosts : Host.Script := [⟨some (some "build"), none, some "b",
      { answer := ⟨some 101, some "", some "error: no such crate"⟩ }⟩]
    let start : Progress :=
      { session := .new hosts ⟨.empty, "/", "/", "/tmp", []⟩ "1"
        built := ⟨some "source.tar.gz", some "inputs.tar.gz"⟩ }
    let good : Executor.Result := ⟨"node1", some "b", some 0, some "", some "", none⟩
    let ws : List (Report.Write Unit) := [.record "probe" (Table.ofList [("node1", good)]),
      .record "build" (Table.ofList [("node1", good)]), .recordSkipped "build" ["node0"] none]
    let earlier : Report := .history ws .empty
    ∃ fresh report f f', exec (p.run none .empty) start = (.ok fresh, f) ∧
      exec (p.run none earlier) start = (.ok report, f') ∧
      report.stages.keys = ["probe", "build", "clean", "distribute-source", "distribute-inputs",
        "install-units", "install-overrides", "reload"] ∧ earlier.Overlaid fresh report := by
  intro nodes t scenario fleet p hosts start good ws earlier
  obtain ⟨fresh, report, f, f', ran, ran', stages, overlaid⟩ :=
    p.run_overlays (g := start) (h := start) (by decide) rfl rfl (by decide) (Session.counted_new _ _ _)
      (Session.counted_new _ _ _) (Host.Script.speaks_of_rules (by decide)) none earlier
  refine ⟨fresh, report, f, f', ran, ran', ?_, overlaid⟩
  rw [overlaid.stages, stages]
  decide +kernel

end Deploy
end Flotilla
