import Flotilla.Proofs.Deploy.Rollout

namespace Flotilla.Deploy
open Session

theorem exec_run {α : Type} (x : Run α) (g : Progress) :
    exec (Act.run x) g = ((exec x g.session).1, { g with session := (exec x g.session).2 }) := by
  rw [Act.run, exec_bind, exec_get]
  unfold exec
  dsimp only
  rcases (ExceptT.run x).run g.session with ⟨_ | _, s⟩ <;> rfl

theorem exec_log (r : Log.Record) (g : Progress) :
    exec (Pipeline.log r) g = (.ok ⟨⟩, { g with session := g.session.note .caller r }) := by
  rw [Pipeline.log, exec_run]
  rfl

namespace Pipeline
variable {x : Rollout} {base : Nat}

theorem exec_leaveOut (s : Step) (skipped : List String) {g : Progress}
    (after : g.session.After base) :
    ∃ s', exec (leaveOut s skipped) g = (.ok ⟨⟩,
        { g with session := s', report := if skipped.isEmpty then g.report
          else g.report.enter (.ofSkipped s.name skipped (some Rollout.reason)) }) ∧
      Passes base g.session s' [] := by
  unfold leaveOut
  cases skipped.isEmpty with
  | true => exact ⟨g.session, rfl, .refl after⟩
  | false =>
    refine ⟨g.session.note .caller (Log.info (s.name ++
      ": skipping nodes that failed an earlier stage: " ++ Text.joinWith ", " skipped)), ?_,
      .note after .caller _⟩
    simp only [Bool.not_false, if_true, exec_bind, exec_log, exec_modify,
      Report.recordSkipped_eq_enter, Bool.false_eq_true, if_false]
    rfl

theorem exec_takePart (names : (x.nodes.map (·.name)).Nodup) (speaks : x.hosts.Speaks)
    {g : Progress} (built : g.built = x.built) (hosts : g.session.hosts = x.hosts)
    (after : g.session.After base) (past : List Step) (s : Step) :
    ∃ s', exec (x.pipeline.takePart (x.nodes.filter fun n => !x.isOut past n) s) g =
        (.ok (x.failedKeys past s),
          { g with session := s', report := g.report.enter (.ofResults s.name (x.results past s)) }) ∧
      Passes base g.session s' (x.passages past s) := by
  obtain ⟨active, chosen⟩ : ∃ active, active = x.nodes.filter fun n => !x.isOut past n := ⟨_, rfl⟩
  rw [← chosen]
  let line := Log.info s!"{s.name}: running on {active.length} node(s)"
  have noted : Passes base g.session (g.session.note .caller line) [] := .note after _ _
  have proper : ∀ t ∈ x.tasks past s, t.isProper := by
    intro t ht
    obtain ⟨n, -, -, task⟩ := Rollout.mem_tasks.mp ht
    exact (Rollout.key_of_task task).2
  obtain ⟨s₁, ran, -, passed⟩ := x.pipeline.executor.exec_execute_of_speaks (some s.name)
    (Rollout.nodup_tasks names past s) proper (s := g.session.note .caller line)
    (by rw [noted.steady.hosts, hosts]; exact speaks)
  rw [noted.steady.hosts, hosts] at ran passed
  have given : (Executor.fleetTasks active fun n =>
      (x.pipeline.plan.command g.built n s).map Command.Given.command) = .ok (x.tasks past s) := by
    rw [chosen, built]
    exact Executor.fleetTasks_filterMap _ fun n => x.pipeline.plan.command x.built n s
  have fanned : exec (Act.run do
      let tasks ← Run.lift (Executor.fleetTasks active fun n =>
        (x.pipeline.plan.command g.built n s).map Command.Given.command)
      x.pipeline.executor.execute (some s.name) tasks)
        { g with session := g.session.note .caller line } =
      (.ok (x.results past s), { g with session := s₁ }) := by
    rw [exec_run, given, Run.lift, pure_bind, ran]
    rfl
  have together := noted.trans (passed noted.after)
  unfold takePart
  rw [exec_bind_ok (exec_log line g), exec_bind_ok (exec_get _)]
  dsimp only
  rw [exec_bind_ok fanned, exec_bind_ok (exec_modify _ _), Report.record_eq_enter]
  split
  · rw [exec_bind_ok (exec_log _ _)]
    exact ⟨_, rfl, together.trans_nil (.note together.after .caller _)⟩
  · exact ⟨_, rfl, together⟩

theorem exec_runStep (names : (x.nodes.map (·.name)).Nodup) (speaks : x.hosts.Speaks)
    {g : Progress} (built : g.built = x.built) (hosts : g.session.hosts = x.hosts)
    (after : g.session.After base) {past : List Step} {excluded : List String}
    (out : ∀ n ∈ x.nodes, excluded.contains n.name = x.isOut past n) (s : Step) :
    ∃ s', exec (x.pipeline.runStep excluded s) g = (.ok (x.failedKeys past s),
        { g with session := s', report := g.report.enter (x.sheet past s) }) ∧
      Passes base g.session s' (x.passages past s) := by
  have skipped : x.pipeline.plan.fleet.nodes.filter (fun n => excluded.contains n.name) =
      x.nodes.filter (x.isOut past) := List.filter_congr out
  have active : x.pipeline.plan.fleet.nodes.filter (fun n => !excluded.contains n.name) =
      x.nodes.filter fun n => !x.isOut past n :=
    List.filter_congr fun n hn => congrArg Bool.not (out n hn)
  obtain ⟨s₁, left, noted⟩ := exec_leaveOut s (x.skipped past) after
  obtain ⟨report, entered⟩ : ∃ report : Report, report = if (x.skipped past).isEmpty then g.report
      else g.report.enter (.ofSkipped s.name (x.skipped past) (some Rollout.reason)) := ⟨_, rfl⟩
  rw [← entered] at left
  obtain ⟨s₂, ran, passed⟩ := exec_takePart names speaks
    (g := { g with session := s₁, report := report }) built
    (noted.steady.hosts.trans hosts) noted.after past s
  have whole : report.enter (.ofResults s.name (x.results past s)) =
      g.report.enter (x.sheet past s) := by
    rw [Rollout.sheet, entered]
    split
    · next none => rw [List.isEmpty_iff.mp none]; rfl
    · exact Report.enter_enter _ _ _ _
  refine ⟨s₂, ?_, noted.trans passed⟩
  rw [runStep, skipped, active, ← whole]
  exact (exec_bind_ok left _).trans ran

theorem exec_runSteps (names : (x.nodes.map (·.name)).Nodup) (speaks : x.hosts.Speaks)
    {g : Progress} (built : g.built = x.built) (hosts : g.session.hosts = x.hosts)
    (after : g.session.After base) {past : List Step} {excluded : List String}
    (out : ∀ n ∈ x.nodes, excluded.contains n.name = x.isOut past n) (steps : List Step) :
    ∃ s', exec (x.pipeline.runSteps excluded steps) g = (.ok ⟨⟩,
        { g with session := s', report := g.report.enterAll (x.sheets past steps) }) ∧
      Passes base g.session s' (x.allPassages past steps) := by
  induction steps generalizing g past excluded with
  | nil => exact ⟨g.session, rfl, .refl after⟩
  | cons s r ih =>
    obtain ⟨s₁, ran, passed⟩ := exec_runStep names speaks built hosts after out s
    -- Who failed earlier took no part, so what fails now is new and is added.
    have out' : ∀ n ∈ x.nodes, (if x.pipeline.policy = .skipFailed
        then excluded ++ x.failedKeys past s else excluded).contains n.name =
        x.isOut (past ++ [s]) n := by
      intro n hn
      rw [Rollout.isOut_append, ← out n hn]
      have failed := Rollout.mem_failedKeys names hn past s
      rw [← out n hn] at failed
      split <;> grind
    obtain ⟨s₂, rest, later⟩ := ih
      (g := { g with session := s₁, report := g.report.enter (x.sheet past s) }) built
      (passed.steady.hosts.trans hosts) passed.after out'
    exact ⟨s₂, (exec_bind_ok ran _).trans rest, passed.trans later⟩

theorem exec_run_of_built (names : (x.nodes.map (·.name)).Nodup) (speaks : x.hosts.Speaks)
    {g : Progress} (built : g.built = x.built) (ready : x.built.source.isSome ∧ x.built.inputs.isSome)
    (hosts : g.session.hosts = x.hosts) (after : g.session.After base) (directory : Option Value)
    (report : Report) :
    ∃ s', exec (x.pipeline.run directory report) g =
        (.ok (report.enterAll (x.sheets [] x.pipeline.steps)),
          { g with session := s', report := report.enterAll (x.sheets [] x.pipeline.steps) }) ∧
      Passes base g.session s' (x.allPassages [] x.pipeline.steps) := by
  have out : ∀ n ∈ x.nodes, ([] : List String).contains n.name = x.isOut [] n := by
    simp [Rollout.isOut]
  obtain ⟨s', ran, passed⟩ := exec_runSteps names speaks (g := { g with report := report }) built
    hosts after out x.pipeline.steps
  have there : (g.built.source.isNone || g.built.inputs.isNone) = false := by
    rw [built]
    simpa using ready
  refine ⟨s', ?_, passed⟩
  rw [run, exec_bind_ok (exec_modify _ _), exec_bind_ok (exec_get _)]
  dsimp only
  rw [there]
  exact (exec_bind_ok ran _).trans (exec_bind_ok (exec_get _) _)

end Pipeline
end Flotilla.Deploy
