import Flotilla.Proofs.CommandLine.Checks
import Flotilla.Proofs.CommandLine.Settings
import Flotilla.Proofs.Deploy.Archives
import Flotilla.Proofs.Lifecycle.Refusal

/-! Actions that are called off. Settings that describe no run are found out before anything is done: up
to then there are only records in the log. From then on an action may fail, but it is not called off
any more. -/
namespace Flotilla.CommandLine.Program
open Executor

section
variable {σ : Type} (π : σ → Session)

/-- Whatever comes of it, nothing is done but to write into the log. -/
def Tells (x : ExceptT Fault (StateM σ) α) (s : σ) : Prop := ∃ rs, π (exec x s).2 = told (π s) rs

/-- It is not called off, and adds nothing to what is left to do at the end. -/
structure Sure (x : ExceptT Fault (StateM σ) α) (s : σ) : Prop where
  errands : (π (exec x s).2).errands = (π s).errands
  settles : Settles (exec x s).1

/-- It is called off in time or not at all. -/
structure Timely (x : ExceptT Fault (StateM σ) α) (s : σ) : Prop where
  errands : (π (exec x s).2).errands = (π s).errands
  inTime : ∀ f, (exec x s).1 = .error f → isAborting f → ∃ rs, π (exec x s).2 = told (π s) rs

variable {π} {x : ExceptT Fault (StateM σ) α} {f : α → ExceptT Fault (StateM σ) β} {s : σ}

theorem Tells.of_same (h : π (exec x s).2 = π s) : Tells π x s := ⟨[], by rw [h, told_nil]⟩

theorem Tells.bind (first : Tells π x s)
    (later : ∀ a s', exec x s = (.ok a, s') → Tells π (f a) s') : Tells π (x >>= f) s := by
  obtain ⟨rs, first⟩ := first
  rw [Tells, exec_bind]
  rcases taken : exec x s with ⟨_ | a, s'⟩ <;> rw [taken] at first
  · exact ⟨rs, first⟩
  · obtain ⟨rs', later⟩ := later a s' taken
    exact ⟨rs ++ rs', by rw [later, first, told_told]⟩

theorem Sure.of_ok {a : α} {s' : σ} (h : exec x s = (.ok a, s')) (errands : (π s').errands = (π s).errands) :
    Sure π x s := by
  constructor <;> rw [h]
  · exact errands
  · exact .ok a

theorem Sure.pure {a : α} : Sure π (Pure.pure a) s := .of_ok (exec_pure a s) rfl

theorem Sure.get : Sure π (MonadState.get : ExceptT Fault (StateM σ) σ) s := .of_ok (exec_get s) rfl

theorem Sure.bind (first : Sure π x s)
    (later : ∀ a s', exec x s = (.ok a, s') → Sure π (f a) s') : Sure π (x >>= f) s := by
  obtain ⟨errands, settles⟩ := first
  constructor <;> rw [exec_bind] <;> rcases taken : exec x s with ⟨g | a, s'⟩ <;>
    rw [taken] at errands settles
  · exact errands
  · exact (later a s' taken).errands.trans errands
  · exact .error (settles g rfl)
  · exact (later a s' taken).settles

theorem Sure.foldlM {ι : Type} {g : β → ι → ExceptT Fault (StateM σ) β} {xs : List ι}
    (step : ∀ b, ∀ a ∈ xs, ∀ s, Sure π (g b a) s) (b : β) (s : σ) : Sure π (xs.foldlM g b) s := by
  induction xs generalizing b s with
  | nil => exact .of_ok (exec_pure b s) rfl
  | cons a r ih =>
    rw [List.foldlM_cons]
    exact (step b a List.mem_cons_self s).bind fun b' s' _ =>
      ih (fun b a ha => step b a (List.mem_cons_of_mem _ ha)) b' s'

theorem Sure.timely (h : Sure π x s) : Timely π x s where
  errands := h.errands
  inTime := fun f failed aborting => by
    rw [h.settles f failed] at aborting
    cases aborting

theorem Tells.timely (h : Tells π x s) : Timely π x s where
  errands := by
    obtain ⟨rs, same⟩ := h
    rw [same]
    rfl
  inTime := fun _ _ _ => h

theorem Tells.then (first : Tells π x s)
    (later : ∀ a s', exec x s = (.ok a, s') → Timely π (f a) s') : Timely π (x >>= f) s := by
  have errands := first.timely.errands
  obtain ⟨rs, first⟩ := first
  constructor <;> rw [exec_bind] <;> rcases taken : exec x s with ⟨g | a, s'⟩ <;>
    rw [taken] at errands first
  · exact errands
  · exact (later a s' taken).errands.trans errands
  · exact fun _ _ _ => ⟨rs, first⟩
  · intro g failed aborting
    obtain ⟨rs', later⟩ := (later a s' taken).inTime g failed aborting
    exact ⟨rs ++ rs', by rw [later, first, told_told]⟩

theorem Timely.bind (first : Timely π x s)
    (later : ∀ a s', exec x s = (.ok a, s') → Sure π (f a) s') : Timely π (x >>= f) s := by
  obtain ⟨errands, inTime⟩ := first
  constructor <;> rw [exec_bind] <;> rcases taken : exec x s with ⟨g | a, s'⟩ <;>
    rw [taken] at errands inTime
  · exact errands
  · exact (later a s' taken).errands.trans errands
  · exact fun g' failed => inTime g' (congrArg Except.error (Except.error.inj failed))
  · intro g failed aborting
    rw [(later a s' taken).settles g failed] at aborting
    cases aborting

end

section
variable {s : Session}

theorem tells_lift (x : Except Fault α) : Tells id (Run.lift x) s := .of_same (by rw [exec_lift])

theorem sure_lift {x : Except Fault α} (h : Settles x) : Sure id (Run.lift x) s := by
  constructor <;> rw [exec_lift]
  exact h

theorem sure_execute (e : Executor) (label : Option String) (tasks : List Task) :
    Sure id (e.execute label tasks) s where
  errands := (e.execute_steady label tasks s).errands
  settles := .of_unwritten fun _ => fault_of_execute

theorem sure_changeDisk (f : Files.Disk → Except FileFault α × Files.Disk) :
    Sure id (Run.changeDisk f) s := by
  constructor <;> rw [Deploy.exec_changeDisk]
  · rfl
  · cases (f s.disk).1 with
    | ok a => exact .ok a
    | error why => exact .error rfl

theorem sure_writeFile (path : String) (e : Files.Entry) : Sure id (Run.writeFile path e) s := by
  constructor <;> rw [Deploy.exec_writeFile] <;> split
  · rfl
  · rfl
  · exact .ok _
  · exact .error rfl

theorem tells_attempt {x : Run α} (h : Tells id x s) (catches : Fault → Bool)
    (recover : Fault → Fault) : Tells id (attempt x catches fun f => throw (recover f)) s := by
  obtain ⟨rs, told⟩ := h
  rw [Tells, exec_attempt]
  rcases taken : exec x s with ⟨f | a, s'⟩ <;> rw [taken] at told
  · dsimp only
    split <;> exact ⟨rs, told⟩
  · exact ⟨rs, told⟩

theorem sure_attempt {x : Run α} (h : Sure id x s) (catches : Fault → Bool) {recover : Fault → Run α}
    (recovers : ∀ f s', Sure id (recover f) s') : Sure id (attempt x catches recover) s := by
  obtain ⟨errands, settles⟩ := h
  constructor <;> rw [exec_attempt] <;> rcases taken : exec x s with ⟨f | a, s'⟩ <;>
    rw [taken] at errands settles <;> dsimp only
  · split
    · exact (recovers f s').errands.trans errands
    · exact errands
  · exact errands
  · split
    · exact (recovers f s').settles
    · exact .error (settles f rfl)
  · exact .ok a

theorem tells_executor (o : Options) : Tells id (executor o) s := by
  refine tells_attempt (.bind ?_ fun config s₁ _ => .bind ?_ fun key s₂ _ => ?_) _ _
  · obtain ⟨rs, chosen⟩ := exec_sshConfig o s
    exact ⟨rs, by rw [chosen]; rfl⟩
  · exact .of_same (by rw [exec_identity])
  · exact .bind (.of_same rfl) fun _ _ _ => tells_lift _

end

section
open Deploy
variable {g : Deploy.Progress}

theorem tells_deploy_run {x : Run α} (h : Tells id x g.session) :
    Tells Progress.session (Act.run x) g := by
  rw [Tells, Deploy.exec_run]
  exact h

theorem sure_deploy_run {x : Run α} (h : Sure id x g.session) :
    Sure Progress.session (Act.run x) g := by
  constructor <;> rw [Deploy.exec_run]
  · exact h.errands
  · exact h.settles

theorem sure_deploy_log (r : Log.Record) : Sure Progress.session (Pipeline.log r) g :=
  .of_ok (Deploy.exec_log r g) rfl

theorem sure_runStep (p : Pipeline) (excluded : List String) (k : Deploy.Step) :
    Sure Progress.session (p.runStep excluded k) g := by
  refine Sure.bind (x := Pipeline.leaveOut k _) ?_ fun _ g _ => ?_
  · unfold Pipeline.leaveOut
    split
    · exact (sure_deploy_log _).bind fun _ g _ => .of_ok (exec_modify _ g) rfl
    · exact .pure
  · refine (sure_deploy_log _).bind fun _ g _ => ?_
    refine .bind .get ?_
    rintro _ _ ⟨⟩
    have given : Settles (fleetTasks (p.plan.fleet.nodes.filter fun n => !excluded.contains n.name)
        fun n => (p.plan.command g.built n k).map Command.Given.command) := by
      rw [fleetTasks_filterMap]
      exact .ok _
    refine (sure_deploy_run ((sure_lift given).bind fun _ _ _ => sure_execute _ _ _)).bind
      fun results g _ => ?_
    refine .bind (.of_ok (exec_modify ..) rfl) fun _ g _ => ?_
    dsimp only
    split
    · exact (sure_deploy_log _).bind fun _ _ _ => .pure
    · exact .pure

theorem sure_runSteps (p : Pipeline) (excluded : List String) (ks : List Deploy.Step) :
    Sure Progress.session (p.runSteps excluded ks) g := by
  induction ks generalizing excluded g with
  | nil => exact .pure
  | cons k r ih => exact (sure_runStep p excluded k).bind fun _ _ _ => ih _

theorem sure_writeArchive (path : String) (contents : List (String × String)) :
    Sure Progress.session (Pipeline.writeArchive path contents) g := by
  refine sure_deploy_run ((sure_writeFile _ _).bind fun _ s _ => .bind .get fun _ s _ => ?_)
  refine (sure_writeFile _ _).bind fun _ s _ => sure_lift ?_
  generalize (Pipeline.packed _ path contents).outcome = outcome
  cases outcome with
  | ok u => exact .ok u
  | error why => exact .error rfl

theorem timely_ready (p : Pipeline) (directory : Value) :
    Timely Progress.session (p.ready directory) g := by
  refine Tells.then (.of_same rfl) fun d g _ => ?_
  refine (tells_deploy_run (tells_lift _)).then fun packageFiles g _ => ?_
  refine (tells_deploy_run (tells_lift _)).then fun _ g _ => ?_
  refine (tells_deploy_run (tells_lift _)).then fun path g _ => Sure.timely ?_
  exact (sure_deploy_run (sure_changeDisk _)).bind fun _ g _ => .pure

theorem timely_prepare (p : Pipeline) (directory : Value) :
    Timely Progress.session (p.prepareIn (.given directory)) g := by
  refine (timely_ready p directory).bind fun found g _ => ?_
  refine Sure.bind (x := p.buildSource _ _) ?_ fun _ g _ => ?_
  · exact .bind (.of_ok (exec_modify ..) rfl) fun _ g _ => sure_writeArchive _ _
  · exact .bind (.of_ok (exec_modify ..) rfl) fun _ g _ => sure_writeArchive _ _

theorem timely_deployAct (p : Pipeline) (job : String) :
    Timely Progress.session (deployAct p job) g := by
  have steps (g : Deploy.Progress) : Sure Progress.session (do
      p.runSteps [] p.steps
      return (← get).report : Act Report) g :=
    (sure_runSteps p _ _).bind fun _ g _ => .bind .get fun _ _ _ => .pure
  refine (tells_deploy_run ⟨[_], rfl⟩).then fun _ g _ => ?_
  refine Tells.then (.of_same rfl) fun _ g _ => Tells.then (.of_same rfl) fun _ g _ => ?_
  dsimp only
  split
  · exact (timely_prepare p _).bind fun _ g _ => steps g
  · exact (steps g).timely

theorem exec_ofDeployment (x : Act α) (s : Session) :
    exec (ofDeployment x) s =
      ((exec x { session := s }).1, (exec x { session := s }).2.session) := by
  rw [ofDeployment, exec_bind_ok (exec_get s)]
  unfold exec
  rcases (ExceptT.run x).run { session := s } with ⟨_ | _, g⟩ <;> rfl

theorem timely_deploy (o : Options) (f : Fleet) (e : Executor) (job : String) {s : Session} :
    Timely id (deploy o f e job) s := by
  refine Tells.then (.of_same rfl) fun _ s _ => ?_
  refine (tells_lift _).then fun p s _ => ?_
  have acts := timely_deployAct p job (g := { session := s })
  constructor <;> rw [exec_ofDeployment]
  · exact acts.errands
  · exact acts.inTime

end

section
open Lifecycle
variable {s : Session}

theorem exec_ofLifecycle (x : Act α) (s : Session) :
    exec (ofLifecycle x) s =
      ((exec x { session := s }).1, (exec x { session := s }).2.session) := by
  rw [ofLifecycle, exec_bind_ok (exec_get s)]
  unfold exec
  rcases (ExceptT.run x).run { session := s } with ⟨_ | _, p⟩ <;> rfl

theorem sure_ofLifecycle {x : Act α} (h : Sure Progress.session x { session := s }) :
    Sure id (ofLifecycle x) s := by
  constructor <;> rw [exec_ofLifecycle]
  · exact h.errands
  · exact h.settles

theorem sure_startAct (o : Options) (c : Controller) :
    Sure Progress.session (startAct o c) { session := s } := by
  have log (r : Log.Record) (p : Progress) : Sure Progress.session (Act.log r) p :=
    .of_ok (Lifecycle.exec_log r p) rfl
  have idle : Phase.idle = .helpersStarted → Controller.helpersIssued { session := s } := nofun
  have moved : Sure Progress.session (c.performAll (c.transitions.map Step.transition))
      { session := s } :=
    { errands := (c.performAll_steady c.transitions _).errands
      settles := .of_unwritten fun _ =>
        c.fault_of_leads (c.leads_transitions (by simp [Controller.sources])) idle }
  refine .bind ?_ fun report p _ => ?_
  · rw [c.run_eq]
    exact moved.bind fun _ p _ =>
      .bind .get fun _ _ _ => .pure
  · split
    · exact (log _ p).bind fun _ _ _ => .pure
    · refine (log _ p).bind fun _ p _ => .bind .get fun _ p _ => ?_
      split
      · refine (log _ p).bind fun _ p _ => .bind (.of_ok (Controller.exec_close p) ?_) fun _ _ _ => .pure
        exact (Controller.closeAll_steady _ p.session).errands
      · obtain ⟨s', r, supervised, steady, -⟩ := c.exec_supervise p
        exact .of_ok supervised steady.errands

theorem timely_start (o : Options) (f : Fleet) (e : Executor) : Timely id (start o f e) s :=
  (tells_lift _).then fun c _ _ => (sure_ofLifecycle (sure_startAct o c)).timely

theorem timely_stop (o : Options) (f : Fleet) (e : Executor) : Timely id (stop o f e) s := by
  refine (tells_lift _).then fun c s _ => (sure_ofLifecycle ?_).timely
  have admitted : c.Admits .stop { session := s } := ⟨by simp [Controller.sources], nofun⟩
  have moved : Sure Progress.session (c.perform (.transition .stop)) { session := s } :=
    { errands := (c.perform_steady .stop _).errands
      settles := .of_unwritten fun _ => c.fault_of_admits admitted }
  have same : (do
      let _ ← c.stop
      return (← get).report : Act Report) = (do
      c.perform (.transition .stop)
      return (← get).report) := by
    simp only [Controller.perform, bind_assoc, pure_bind]
  rw [same]
  exact moved.bind fun _ p _ => .bind .get fun _ _ _ => .pure

end

section
variable {s : Session}

theorem sure_sshConfig (o : Options) : Sure id (sshConfig o) s := by
  obtain ⟨rs, chosen⟩ := exec_sshConfig o s
  constructor <;> rw [chosen]
  · rfl
  · exact (settles_expand _ _).map _

theorem sure_identity (o : Options) : Sure id (identity o) s := by
  constructor <;> rw [exec_identity]
  exact .ite ((settles_expand _ _).map _) (.ok _)

theorem isAborting_of_fault? {limit : Option Value} {f : Fault} (h : Patience.fault? limit = some f) :
    isAborting f = false := by
  have seconds {x : Number.Binary64} (h : Patience.secondsFault? x = some f) : isAborting f = false := by
    unfold Patience.secondsFault? at h
    repeat' split at h
    all_goals cases h
    all_goals rfl
  obtain ⟨v, -, h⟩ := Option.bind_eq_some_iff.mp h
  unfold Patience.valueFault? at h
  split at h
  · cases h
    rfl
  · exact seconds h
  · split at h
    · cases h
      rfl
    · exact seconds h

theorem sure_await (timeout : Option Value) (c : Connection) (a : Host.Access) (command : Command) :
    Sure id (Single.await timeout c a command) s := by
  have process (e : ProcessEvent) (s : Session) : Sure id (Single.process e) s :=
    .of_ok (exec_modify _ s) rfl
  have ends {α : Type} {f : Fault} (h : isAborting f = false) (s : Session) :
      Sure id (throw f : Run α) s := ⟨rfl, .error h⟩
  have spoken (passed : List Host.Event) (s : Session) : (Single.spoken c passed s).errands = s.errands := by
    unfold Single.spoken
    split <;> rfl
  unfold Single.await
  rcases Single.converse c.behaviour a command with ⟨events, answer⟩
  refine (process _ _).bind fun _ s _ => ?_
  dsimp only
  split
  · exact (process _ s).bind fun _ s _ => .bind (ends rfl s) fun _ _ h => nomatch h
  · refine .bind (.of_ok (exec_modify ..) (spoken _ _)) fun _ s _ => (process _ s).bind fun _ s _ => ?_
    split
    · exact ends rfl s
    · next why came =>
      refine (process _ s).bind fun _ s _ => ends ?_ s
      unfold Patience.wait at came
      split at came
      · next fault =>
        cases came
        exact isAborting_of_fault? fault
      · cases came
      · split at came <;> cases came
        rfl
    · refine (process _ s).bind fun _ s _ => sure_lift ?_
      cases answer with
      | none => exact .error rfl
      | some a => exact .ok a

theorem sure_unitIsActive (n : Node) (unit : String) (given : Probe.Settings) :
    Sure id (Probe.unitIsActive n unit given) s := by
  refine .bind .get ?_
  rintro _ _ ⟨⟩
  lift_lets
  intro d asking
  have asks (config : Value) (s : Session) : Sure id (asking config) s := by
    refine (sure_lift ((settles_readConfig _ _).map _)).bind fun _ s _ => ?_
    refine .bind ?_ fun a s _ => ?_
    · refine (sure_lift (.ok _)).bind fun _ s _ => .bind .get fun _ s _ => ?_
      refine (sure_lift (settles_readIdentity _ _)).bind fun _ s _ => ?_
      exact .bind .get fun _ s _ => sure_await _ _ _ _
    · split
      · exact .pure
      · exact ⟨rfl, .error rfl⟩
  split
  · refine .bind ?_ fun config s _ => asks config s
    rw [map_eq_pure_bind]
    exact (sure_lift (settles_expand _ _)).bind fun _ _ _ => .pure
  · exact .bind .pure fun config s _ => asks config s

theorem sure_probeInstance (o : Options) (i : Instance) : Sure id (probeInstance o i) s := by
  refine sure_attempt ?_ _ fun f s => ?_
  · exact (sure_sshConfig o).bind fun _ s _ => (sure_identity o).bind fun _ s _ =>
      sure_unitIsActive _ _ _
  · exact .bind (.of_ok rfl rfl) fun _ _ _ => .pure

theorem sure_unitsAreActive (f : Fleet) (e : Executor) : Sure id (Probe.unitsAreActive f e) s := by
  refine (sure_execute _ _ _).bind fun results s _ => .foldlM (fun t i _ s => ?_) _ s
  unfold Probe.enterActivity
  split
  · exact ⟨rfl, .error rfl⟩
  · exact .bind (.of_ok rfl rfl) fun _ _ _ => .pure

theorem sure_bootstrapIsReachable (f : Fleet) (timeout : Option Value) :
    Sure id (Probe.bootstrapIsReachable f timeout) s := by
  unfold Probe.bootstrapIsReachable
  split
  · exact ⟨rfl, .error rfl⟩
  · split
    · exact ⟨rfl, .error rfl⟩
    · exact .bind (.of_ok (exec_modify ..) rfl) fun _ s _ => .bind .get fun _ _ _ => .pure

theorem timely_status (o : Options) (f : Fleet) (e : Executor) : Timely id (status o f e) s := by
  have reports (active : Table String Bool) (s : Session) : Sure id (do
      let report := Report.empty.record Probe.label
        (Table.ofList (f.instances.filterMap (statusResult active)))
      if !(← Probe.bootstrapIsReachable f (some (.num (.int Defaults.reachTimeout)))) then
        log (Log.info s!"Bootstrap peer {f.topology.bootstrapSocket} is not reachable from here")
      return report : Run Report) s := by
    refine (sure_bootstrapIsReachable f _).bind fun _ s _ => ?_
    dsimp only
    split
    · exact .bind (.of_ok rfl rfl) fun _ _ _ => .pure
    · exact .pure
  have probes (t : Table String Bool) (i : Instance) (s : Session) :
      Sure id (do return t.put i.key (← probeInstance o i)) s :=
    (sure_probeInstance o i).bind fun _ _ _ => .pure
  unfold status
  dsimp only
  split
  · exact ((sure_unitsAreActive f e).bind fun active s _ => reports active s).timely
  · refine Timely.bind ?_ fun active s _ => reports active s
    exact (tells_lift _).then fun n s _ => (Sure.foldlM (fun t i _ => probes t i) _ s).timely

end

section
variable (o : Options) (a : Action) (f : Fleet) (job : String)

theorem timely_attempted {s : Session} : Timely id (attempted o a f job) s := by
  refine (tells_executor o).then fun e s _ => ?_
  cases a
  · exact timely_deploy o f e job
  · exact timely_start o f e
  · exact timely_stop o f e
  all_goals exact timely_status o f e

theorem exec_act (s : Session) : exec (act o a f job) s = match exec (attempted o a f job) s with
    | (.ok r, s') => (.ok (some r), s')
    | (.error why, s') =>
      if isAborting why then
        (.ok none, told s' [Log.error s!"{a.name} aborted: {why.message}"])
      else (.error why, s') := by
  rw [act, exec_attempt, exec_bind]
  rcases exec (attempted o a f job) s with ⟨_ | _, s'⟩ <;> rfl

theorem errands_act (s : Session) : (exec (act o a f job) s).2.errands = s.errands := by
  have errands := (timely_attempted o a f job (s := s)).errands
  rw [exec_act]
  rcases taken : exec (attempted o a f job) s with ⟨why | r, s'⟩ <;> rw [taken] at errands <;>
    dsimp only
  · split <;> exact errands
  · exact errands

variable {o a f job}

theorem told_of_act {s s' : Session} (h : exec (act o a f job) s = (.ok none, s')) :
    ∃ rs, s' = told s rs := by
  have inTime := (timely_attempted o a f job (s := s)).inTime
  rw [exec_act] at h
  rcases taken : exec (attempted o a f job) s with ⟨why | r, t⟩ <;> rw [taken] at h inTime
  · dsimp only at h
    split at h
    · next aborting =>
      obtain ⟨rs, same⟩ := inTime why rfl aborting
      obtain rfl : t = told s rs := same
      cases h
      exact ⟨_, told_told s rs _⟩
    · cases h
  · cases h

end
end Flotilla.CommandLine.Program
