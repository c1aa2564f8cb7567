import Flotilla.Proofs.CommandLine.Settings
import Flotilla.Proofs.Executor.Reaping
import Flotilla.Proofs.Fleet.Keys
import Flotilla.Proofs.Session.Passage

/-! Two ways to ask whether the units of a node are active: by a process of its own for each, or by
one fan-out over the whole fleet. They read the same answers and differ in what they take for one: the
process hands over what it was told before it closes its connection, and has no use for an answer
without a text. -/
namespace Flotilla

/-- Hosts that behave the same whatever is asked of them and whoever asks. -/
def Host.Script.ByHost (hosts : Script) : Prop :=
  ∀ c c' : Channel, c.host = c'.host → hosts.behaviour c = hosts.behaviour c'

/-- How a host behaves to a process of its own, which has no label and no key. -/
abbrev Host.Script.alone (hosts : Script) (host : String) : Behaviour :=
  hosts.behaviour ⟨none, none, host⟩

theorem Host.Script.ByHost.of_rules {hosts : Script}
    (rules : ∀ r ∈ hosts, r.label = none ∧ r.key = none) : hosts.ByHost := by
  intro c c' same
  have alike : hosts.find? (·.applies c) = hosts.find? (·.applies c') := by
    induction hosts with
    | nil => rfl
    | cons r rest ih =>
      obtain ⟨label, key⟩ := rules r List.mem_cons_self
      have applies : r.applies c = r.applies c' := by
        rw [Rule.applies, Rule.applies, label, key, same]
        rfl
      rw [List.find?_cons, List.find?_cons, applies,
        ih fun r hr => rules r (List.mem_cons_of_mem _ hr)]
  rw [behaviour, behaviour, alike]

/-- A command that fails there leaves no text that tells why. -/
def Host.Behaviour.IsMute (b : Behaviour) : Prop :=
  (b.Answers ∧ b.closeError = none) ∧ b.answer.returnCode ≠ some 0 ∧ b.answer.stderr = none

instance (b : Host.Behaviour) : Decidable b.IsMute := inferInstanceAs (Decidable (_ ∧ _))

namespace Probe
open Executor Session CommandLine.Program

def single (b : Host.Behaviour) : Except Fault Bool :=
  if b.Answers then match b.answer.stdout with
    | some stdout => .ok (saysActive b.answer.returnCode stdout)
    | none => .error noText
  else .ok false

def surveyed (b : Host.Behaviour) : Bool :=
  decide (b.Answers ∧ b.closeError = none) &&
    saysActive b.answer.returnCode (b.answer.stdout.getD "")

theorem uploads_isActive (unit : String) : (Unit.isActive unit).uploads = [] := rfl

def task (i : Instance) : Task := ⟨i.key, i.node.address, .command (Unit.isActive i.name)⟩

theorem resultIsActive_ofOutcome (t : Task) (x : Except String Host.Answer) :
    resultIsActive (.ofOutcome t x) =
      x.toOption.any fun a => saysActive a.returnCode (a.stdout.getD "") := by
  cases x <;> rfl

theorem isMute_ofOutcome (t : Task) (x : Except String Host.Answer) :
    (Result.ofOutcome t x).isMute =
      x.toOption.any fun a => a.returnCode != some 0 && a.stderr.isNone := by
  cases x with
  | error why => rfl
  | ok a => simp [Result.ofOutcome, Result.ofAnswer, Result.isMute, Result.isOk, Except.toOption, bne]

section
variable {hosts : Host.Script} (byHost : hosts.ByHost) (e : Executor) (i : Instance)
include byHost

theorem toOption_outcome :
    (e.outcome hosts (some label) (task i)).toOption =
      let b := hosts.alone i.node.address
      if b.Answers ∧ b.closeError = none then some b.answer else none := by
  have same := byHost ⟨some label, some i.key, i.node.address⟩ ⟨none, none, i.node.address⟩ rfl
  change (Host.Exchange.complete (hosts.behaviour ⟨some label, some i.key, i.node.address⟩) e.access
    (Unit.isActive i.name)).outcome.toOption = _
  rw [same]
  exact Host.Exchange.toOption_complete _ _ rfl

theorem resultIsActive_result :
    resultIsActive (e.result hosts (some label) (task i)) =
      surveyed (hosts.alone i.node.address) := by
  rw [result, resultIsActive_ofOutcome, toOption_outcome byHost e i, surveyed]
  dsimp only
  split <;> next answers => simp [answers]

theorem isMute_result :
    (e.result hosts (some label) (task i)).isMute ↔ (hosts.alone i.node.address).IsMute := by
  rw [result, isMute_ofOutcome, toOption_outcome byHost e i, Host.Behaviour.IsMute]
  dsimp only
  split <;> next answers => simp [answers]

end

def survey (f : Fleet) (hosts : Host.Script) : List (String × Bool) :=
  f.instances.map fun i => (i.key, surveyed (hosts.alone i.node.address))

theorem exec_unitsAreActive {f : Fleet} (distinct : (f.instances.map (·.key)).Nodup) (e : Executor)
    {s : Session} (byHost : s.hosts.ByHost) :
    (exec (unitsAreActive f e) s).1 =
      if ∀ t ∈ tasks f, ¬ (e.result s.hosts (some label) t).isMute then
        .ok (Table.empty.putAll (survey f s.hosts)) else .error noText := by
  have keys : ((tasks f).map (·.key)).Nodup := by simpa [tasks, Function.comp_def] using distinct
  have proper : ∀ t ∈ tasks f, t.isProper := by
    intro t ht
    obtain ⟨i, -, rfl⟩ := List.mem_map.mp ht
    rfl
  obtain ⟨rs, s₁, ran, -, found, -⟩ := e.exec_execute (some label) keys proper s
  rw [unitsAreActive, exec_bind, ran]
  by_cases loud : ∀ t ∈ tasks f, ¬ (e.result s.hosts (some label) t).isMute
  · have entered (t : Table String Bool) (i : Instance) (hi : i ∈ f.instances) (s₁ : Session) :
        ∃ s', exec (enterActivity rs t i) s₁ =
          (.ok (t.put i.key (surveyed (s.hosts.alone i.node.address))), s') := by
      have known : rs.get? i.key = some _ := found _ (List.mem_map_of_mem hi)
      rw [enterActivity, known, ← resultIsActive_result byHost e i]
      exact ⟨_, rfl⟩
    obtain ⟨s', all, -⟩ := exec_foldlM (I := fun _ => True)
      (fun t i hi s₁ _ => (entered t i hi s₁).imp fun _ entry => ⟨entry, trivial⟩) .empty (s := s₁)
      trivial
    rw [if_pos loud, if_pos loud]
    dsimp only
    rw [all, Table.foldl_put_eq_putAll]
    rfl
  · rw [if_neg loud, if_neg loud]

/-- The path of the settings stays the same if its tilde is expanded once more. -/
def Settled (o : CommandLine.Options) (d : Files.Disk) : Prop :=
  ∀ path, d.expand o.sshConfigFile = .ok path → d.expand (.text path) = .ok path

instance (o : CommandLine.Options) (d : Files.Disk) : Decidable (Settled o d) :=
  decidable_of_iff ((d.expand o.sshConfigFile).bind (fun path => d.expand (.text path)) =
    d.expand o.sshConfigFile) <| by
    unfold Settled
    cases d.expand o.sshConfigFile <;> simp [Except.bind]

/-- Both files can be read, and the one with the settings stays the same if its tilde is expanded once
more. -/
structure Usable (o : CommandLine.Options) (d : Files.Disk) (config key : Value) : Prop where
  isConfig : configValue o d = .ok config
  isKey : identityValue o d = .ok key
  readConfig : ∃ settings, readConfig d config = .ok settings
  readKey : ∃ identity, readIdentity d key = .ok identity
  settled : config.isTruthy → (d.expand config).map .text = .ok config

theorem exec_single_execute {s : Session} {key : Value} {identity : Option String}
    (readKey : readIdentity s.disk key = .ok identity) {host : String}
    (ends : (s.hosts.alone host).child = .ends) {c : Command}
    (bare : c.uploads = []) (user : Option Value) {timeout : Option Value}
    (waits : Patience.fault? timeout = none) :
    ∃ s', exec (Single.execute host (.command c) user key timeout) s =
      (if (s.hosts.alone host).Answers then .ok (s.hosts.alone host).answer
        else .error (.run .noResult), s') ∧
      s.Steady s' := by
  have serves : (s.hosts.alone host).Serves c ↔ (s.hosts.alone host).Answers :=
    Host.Behaviour.serves_iff_of_bare bare
  have behaves : (s.connection ⟨none, none, host⟩).behaviour = s.hosts.alone host := rfl
  rw [Single.exec_execute_of_key rfl host user timeout readKey,
    Single.exec_await_of_started timeout s (by simp [behaves, ends]), behaves, ends, Patience.wait, waits]
  refine ⟨_, Prod.ext ?_ rfl, ?_⟩
  swap
  · unfold Single.spoken
    split <;> exact ⟨rfl, rfl, rfl, id, rfl⟩
  change Single.heard (Single.converse (s.hosts.alone host) _ c).2 = _
  by_cases answers : (s.hosts.alone host).Answers
  · rw [if_pos answers, Single.answer_of_serves _ (serves.mpr answers), Single.heard]
  · rw [if_neg answers, Single.answer_of_not_serves _ (mt serves.mp answers), Single.heard]

def inquire (d : Files.Disk) (n : Node) (unit : String) (user : Option Value) (config key : Value) :
    Run Bool := do
  let _ ← Run.lift (Single.ofSettings d config)
  let a ← Single.execute n.address (.command (Unit.isActive unit)) user key
    (some (.num (.int Defaults.probeTimeout)))
  match a.stdout with
  | some stdout => return saysActive a.returnCode stdout
  | none => throw noText

theorem exec_unitIsActive {s : Session} {config : Value}
    (settled : config.isTruthy → (s.disk.expand config).map .text = .ok config) (n : Node)
    (unit : String) (user : Option Value) (key : Value) :
    exec (unitIsActive n unit { sshConfig := config, user, identity := key }) s =
      exec (inquire s.disk n unit user config key) s := by
  rw [unitIsActive, exec_bind_ok (exec_get s)]
  dsimp only
  split
  · next truthy =>
    have same := settled truthy
    cases path : s.disk.expand config <;> rw [path] at same
    · cases same
    · rw [← Except.ok.inj same]
      rfl
  · rfl

theorem exec_inquire {o : CommandLine.Options} {s : Session} {config key : Value}
    (usable : Usable o s.disk config key) {n : Node}
    (ends : (s.hosts.alone n.address).child = .ends) (unit : String)
    (user : Option Value) :
    ∃ s', exec (inquire s.disk n unit user config key) s =
      (if (s.hosts.alone n.address).Answers then single (s.hosts.alone n.address)
        else .error (.run .noResult), s') ∧
      s.Steady s' := by
  obtain ⟨settings, readable⟩ := usable.readConfig
  obtain ⟨identity, readKey⟩ := usable.readKey
  have waits : Patience.fault? (some (.num (.int Defaults.probeTimeout))) = none := by decide +kernel
  obtain ⟨s', answered, steady⟩ := exec_single_execute readKey ends (uploads_isActive unit) user waits
  have set : exec (Run.lift (Single.ofSettings s.disk config)) s = (.ok ⟨settings⟩, s) := by
    rw [exec_lift, Single.ofSettings, readable]
    rfl
  refine ⟨s', ?_, steady⟩
  rw [inquire, exec_bind_ok set, exec_bind, answered]
  by_cases answers : (s.hosts.alone n.address).Answers
  · rw [if_pos answers, if_pos answers, single, if_pos answers]
    dsimp only
    cases (s.hosts.alone n.address).answer.stdout <;> rfl
  · rw [if_neg answers, if_neg answers]

theorem exec_probeInstance {o : CommandLine.Options} {s : Session} {config key : Value}
    (usable : Usable o s.disk config key) {i : Instance}
    (ends : (s.hosts.alone i.node.address).child = .ends) :
    ∃ s', exec (probeInstance o i) s =
      (single (s.hosts.alone i.node.address), s') ∧ s.Steady s' := by
  obtain ⟨rs, chosen⟩ := exec_sshConfig o s
  have keyed : exec (identity o) (told s rs) = (.ok key, told s rs) := by
    rw [exec_identity]
    exact congrArg (·, told s rs) usable.isKey
  rw [usable.isConfig] at chosen
  obtain ⟨s', inquired, steady⟩ := exec_inquire (s := told s rs) usable ends i.name o.user.given?
  rw [← exec_unitIsActive (s := told s rs) usable.settled] at inquired
  rw [probeInstance, exec_attempt, exec_bind_ok chosen, exec_bind_ok keyed, inquired,
    show (told s rs).hosts = s.hosts from rfl]
  by_cases answers : (s.hosts.alone i.node.address).Answers
  · rw [if_pos answers, single, if_pos answers]
    refine ⟨s', ?_, (told_steady s rs).trans steady⟩
    cases (s.hosts.alone i.node.address).answer.stdout <;> rfl
  · rw [if_neg answers, single, if_neg answers]
    exact ⟨_, rfl, (told_steady s rs).trans (steady.trans (note_steady s' _ _))⟩

theorem findNode_of_mem {f : Fleet} (ordered : Fleet.hasOrdinals f.nodes) {n : Node}
    (hn : n ∈ f.nodes) : findNode f (.num (.int n.id)) = .ok n := by
  obtain ⟨k, ordinal, found⟩ := Fleet.getElem?_ordinal ordered hn
  have counted : ¬ (k : Int) < 0 := by omega
  rw [findNode, ordinal, if_neg counted, Int.toNat_natCast, found]

def uniform (f : Fleet) (n : Node) (x : Bool) : Table String Bool :=
  Table.empty.putAll ((f.instancesOn n).map fun i => (i.key, x))

theorem exec_nodeStatus {f : Fleet} (ordered : Fleet.hasOrdinals f.nodes) {n : Node} (hn : n ∈ f.nodes)
    (inhabited : f.instancesOn n ≠ []) {o : CommandLine.Options} (asked : o.node = .num (.int n.id))
    {s : Session} {config key : Value} (usable : Usable o s.disk config key)
    (ends : (s.hosts.alone n.address).child = .ends) :
    (exec (nodeStatus o f) s).1 =
      (single (s.hosts.alone n.address)).map (uniform f n) := by
  have probed (i : Instance) (hi : i ∈ f.instancesOn n) (s' : Session) (steady : s.Steady s') :
      ∃ s'', exec (probeInstance o i) s' =
        (single (s.hosts.alone n.address), s'') ∧ s.Steady s'' := by
    have node : i.node = n := by simpa [Fleet.instancesOn] using (List.mem_filter.mp hi).2
    obtain ⟨s'', asked, steady'⟩ := exec_probeInstance (s := s') (i := i) (steady.disk ▸ usable)
      (by rw [steady.hosts, node]; exact ends)
    rw [steady.hosts, node] at asked
    exact ⟨s'', asked, steady.trans steady'⟩
  rw [nodeStatus, asked, findNode_of_mem ordered hn, exec_bind_ok (exec_lift _ s)]
  cases outcome : single (s.hosts.alone n.address) with
  | error e =>
    obtain ⟨i, r, listed⟩ := List.exists_cons_of_ne_nil inhabited
    obtain ⟨s', failed, -⟩ := probed i (by simp [listed]) s (.refl s)
    rw [listed, List.foldlM_cons, exec_bind, exec_bind, failed, outcome]
    rfl
  | ok x =>
    have entered (t : Table String Bool) (i : Instance) (hi : i ∈ f.instancesOn n) (s₁ : Session)
        (steady : s.Steady s₁) : ∃ s₂, exec (do return t.put i.key (← probeInstance o i)) s₁ =
          (.ok (t.put i.key x), s₂) ∧ s.Steady s₂ := by
      obtain ⟨s₂, passed, steady'⟩ := probed i hi s₁ steady
      rw [exec_bind, passed, outcome]
      exact ⟨s₂, rfl, steady'⟩
    obtain ⟨s', all, -⟩ := exec_foldlM entered .empty (.refl s)
    rw [all, Table.foldl_put_eq_putAll]
    rfl

theorem single_eq_surveyed_iff (b : Host.Behaviour) : single b = .ok (surveyed b) ↔
    (b.Answers → ∃ stdout, b.answer.stdout = some stdout ∧
      (saysActive b.answer.returnCode stdout → b.closeError = none)) := by
  unfold single surveyed
  by_cases answers : b.Answers
  · cases said : b.answer.stdout with
    | none => simp [answers]
    | some stdout =>
      cases b.closeError <;> cases saysActive b.answer.returnCode stdout <;> simp [answers]
  · simp [answers]

section
variable {f : Fleet} (distinct : (f.instances.map (·.key)).Nodup)
include distinct

theorem entries_uniform (n : Node) (x : Bool) :
    (uniform f n x).entries = (f.instancesOn n).map fun i => (i.key, x) := by
  rw [uniform, Table.entries_putAll]
  · rfl
  · simpa [Function.comp_def, Fleet.instancesOn] using
      distinct.sublist (List.filter_sublist.map _)

theorem filter_survey (hosts : Host.Script) (n : Node) :
    ((Table.empty.putAll (survey f hosts)).filter fun k _ => k ∈ (f.instancesOn n).map (·.key)) =
      uniform f n (surveyed (hosts.alone n.address)) := by
  have onNode : ∀ i ∈ f.instances,
      decide (i.key ∈ (f.instancesOn n).map (·.key)) = decide (i.node = n) := by
    intro i hi
    rw [decide_eq_decide]
    refine ⟨fun listed => ?_, fun node => ?_⟩
    · obtain ⟨j, hj, same⟩ := List.mem_map.mp listed
      obtain ⟨hj, node⟩ := List.mem_filter.mp hj
      obtain rfl := List.inj_on_of_nodup_map distinct hj hi same
      simpa using node
    · exact List.mem_map_of_mem (List.mem_filter.mpr ⟨hi, by simpa using node⟩)
  have entries : (Table.empty.putAll (survey f hosts)).entries = survey f hosts :=
    Table.entries_putAll (by simpa [survey, Function.comp_def] using distinct)
  apply Table.eq_of_entries
  rw [entries_uniform distinct]
  change (Table.empty.putAll (survey f hosts)).entries.filter _ = _
  rw [entries, survey, List.filter_map]
  refine (congrArg _ (List.filter_congr onNode)).trans (List.map_congr_left fun i hi => ?_)
  have node : i.node = n := by simpa using (List.mem_filter.mp hi).2
  rw [node]

theorem uniform_inj {n : Node} (inhabited : f.instancesOn n ≠ []) {x y : Bool}
    (same : uniform f n x = uniform f n y) : x = y := by
  obtain ⟨i, r, listed⟩ := List.exists_cons_of_ne_nil inhabited
  have entries := congrArg Table.entries same
  rw [entries_uniform distinct, entries_uniform distinct, listed] at entries
  exact (Prod.mk.inj (List.cons.inj entries).1).2

end

/-- Both ways give a table, and what the process finds of a node is the node's part of what the fan-out
finds of the fleet. -/
def Agree (o : CommandLine.Options) (f : Fleet) (e : Executor) (n : Node) (s : Session) : Prop :=
  ∃ t u, (exec (nodeStatus o f) s).1 = .ok t ∧ (exec (unitsAreActive f e) s).1 = .ok u ∧
    t = u.filter fun k _ => k ∈ (f.instancesOn n).map (·.key)

theorem usable_of_exec_executor {o : CommandLine.Options} {e : Executor} {s₀ s : Session}
    (made : exec (executor o) s₀ = (.ok e, s)) (settled : Settled o s₀.disk) :
    ∃ config key, Usable o s.disk config key := by
  obtain ⟨config, key, rs, isConfig, isKey, readConfig, readKey, rfl⟩ := of_exec_executor made
  refine ⟨config, key, isConfig, isKey, ⟨_, readConfig⟩, ⟨_, readKey⟩, fun truthy => ?_⟩
  obtain ⟨path, expanded, rfl⟩ : ∃ path, s₀.disk.expand o.sshConfigFile = .ok path ∧
      (if s₀.disk.isPresent path then .text path else .null) = config := by
    unfold configValue at isConfig
    cases expanded : s₀.disk.expand o.sshConfigFile <;> rw [expanded] at isConfig
    · cases isConfig
    · exact ⟨_, rfl, Except.ok.inj isConfig⟩
  split at truthy
  · next there =>
    change (s₀.disk.expand _).map _ = _
    rw [if_pos there, settled path expanded]
    rfl
  · cases truthy

theorem forall_tasks_iff {nodes : List Node} {r : Fleet.Request} {f : Fleet}
    (resolved : Fleet.resolve nodes r = .ok f) {hosts : Host.Script} (byHost : hosts.ByHost)
    (e : Executor) :
    (∀ t ∈ tasks f, ¬ (e.result hosts (some label) t).isMute) ↔
      ∀ n ∈ f.nodes, ¬ (hosts.alone n.address).IsMute := by
  change (∀ t ∈ f.instances.map task, _) ↔ _
  simp only [List.forall_mem_map, isMute_result byHost]
  constructor
  · intro loud n hn
    obtain ⟨i, hi⟩ := List.exists_mem_of_ne_nil _ (Fleet.instancesOn_ne_nil resolved hn)
    obtain ⟨listed, node⟩ := List.mem_filter.mp hi
    rw [← of_decide_eq_true node]
    exact loud i listed
  · intro loud i hi
    exact loud i.node (Fleet.node_mem resolved hi)

/-- The two ways agree on a node exactly if the fan-out has nothing to trip over, and the node's host,
where it answers, sends a text and does not break down after the text has said that all is well. -/
theorem nodeStatus_agrees_iff {nodes : List Node} {r : Fleet.Request} {f : Fleet}
    (resolved : Fleet.resolve nodes r = .ok f) {n : Node} (hn : n ∈ f.nodes)
    {o : CommandLine.Options} (asked : o.node = .num (.int n.id)) {e : Executor} {s₀ s : Session}
    (made : exec (executor o) s₀ = (.ok e, s))
    (settled : Settled o s₀.disk) (byHost : s.hosts.ByHost) {b : Host.Behaviour}
    (behaves : s.hosts.alone n.address = b) (ends : b.child = .ends) :
    Agree o f e n s ↔
      (∀ m ∈ f.nodes, ¬ (s.hosts.alone m.address).IsMute) ∧
        (b.Answers → ∃ stdout, b.answer.stdout = some stdout ∧
          (saysActive b.answer.returnCode stdout → b.closeError = none)) := by
  subst behaves
  have distinct := Fleet.nodup_instance_keys resolved
  have inhabited := Fleet.instancesOn_ne_nil resolved hn
  obtain ⟨config, key, usable⟩ := usable_of_exec_executor made settled
  have node := exec_nodeStatus (Fleet.hasOrdinals_of_resolve resolved) hn inhabited asked usable ends
  have fleet := exec_unitsAreActive distinct e byHost
  rw [Agree, node, fleet, ← single_eq_surveyed_iff, ← forall_tasks_iff resolved byHost e]
  constructor
  · rintro ⟨t, u, found, all, rfl⟩
    split at all
    · next loud =>
      obtain rfl := Except.ok.inj all
      rw [filter_survey distinct] at found
      refine ⟨loud, ?_⟩
      cases outcome : single (s.hosts.alone n.address) with
      | error => rw [outcome] at found; cases found
      | ok x =>
        rw [outcome] at found
        rw [uniform_inj distinct inhabited (Except.ok.inj found)]
    · cases all
  · rintro ⟨loud, same⟩
    refine ⟨_, _, congrArg _ same, if_pos loud, ?_⟩
    exact (filter_survey distinct s.hosts n).symm

/-- One node cannot be reached. The other tells that its units rest, and breaks down as it is left: both
ways find them resting. -/
theorem agree_on_resting_node :
    let n : Node := ⟨1, "b"⟩
    let o : CommandLine.Options := { node := .num (.int 1) }
    let rests : Host.Behaviour :=
      { answer := ⟨some 3, some "inactive", some ""⟩, closeError := some "reset" }
    let hosts : Host.Script :=
      [⟨none, none, some "a", { connectError := some "refused" }⟩, ⟨none, none, some "b", rests⟩]
    let s₀ : Session := .new hosts ⟨.empty, "/", "/", "/tmp", []⟩ "1"
    ∃ f, Fleet.resolve [⟨0, "a"⟩, n] {} = .ok f ∧ n ∈ f.nodes ∧
      ∃ e s, exec (executor o) s₀ = (.ok e, s) ∧
        Settled o s₀.disk ∧ s.hosts.ByHost ∧ s.hosts.alone n.address = rests ∧
        rests.child = .ends ∧ Agree o f e n s := by
  intro n o rests hosts s₀
  have settled : Settled o s₀.disk := by decide +kernel
  obtain ⟨e, s, made⟩ : ∃ e s, exec (executor o) s₀ = (.ok e, s) :=
    exec_of_toBool (by decide +kernel)
  obtain ⟨-, -, rs, -, -, -, -, rfl⟩ := of_exec_executor made
  have byHost : hosts.ByHost := .of_rules (by decide)
  obtain ⟨f, resolved, nodes⟩ : ∃ f, Fleet.resolve [⟨0, "a"⟩, n] {} = .ok f ∧ f.nodes = [⟨0, "a"⟩, n] :=
    ⟨_, by with_unfolding_all rfl, rfl⟩
  have hn : n ∈ f.nodes := nodes ▸ by decide
  refine ⟨f, resolved, hn, e, _, made, settled, byHost, rfl, rfl, ?_⟩
  refine (nodeStatus_agrees_iff resolved hn rfl made settled byHost (b := rests) rfl rfl).mpr
    ⟨?_, fun _ => ⟨"inactive", rfl, by decide⟩⟩
  rw [nodes]
  change ∀ m ∈ [⟨0, "a"⟩, n], ¬ (hosts.alone m.address).IsMute
  decide

/-- A host that answers without a text is an error for the process and none for the fan-out. -/
theorem not_agree_without_text :
    let n : Node := ⟨0, "host"⟩
    let o : CommandLine.Options := { node := .num (.int 0) }
    let hosts : Host.Script := [⟨none, none, none, { answer := ⟨some 0, none, some ""⟩ }⟩]
    let s₀ : Session := .new hosts ⟨.empty, "/", "/", "/tmp", []⟩ "1"
    ∃ f, Fleet.resolve [n] {} = .ok f ∧ n ∈ f.nodes ∧
      ∃ e s, exec (executor o) s₀ = (.ok e, s) ∧
        Settled o s₀.disk ∧ s.hosts.ByHost ∧ (s.hosts.alone n.address).child = .ends ∧
        (exec (nodeStatus o f) s).1 = .error noText ∧ ¬ Agree o f e n s := by
  intro n o hosts s₀
  have settled : Settled o s₀.disk := by decide +kernel
  obtain ⟨e, s, made⟩ : ∃ e s, exec (executor o) s₀ = (.ok e, s) :=
    exec_of_toBool (by decide +kernel)
  obtain ⟨f, resolved, nodes⟩ : ∃ f, Fleet.resolve [n] {} = .ok f ∧ f.nodes = [n] :=
    ⟨_, by with_unfolding_all rfl, rfl⟩
  have hn : n ∈ f.nodes := nodes ▸ List.mem_singleton_self n
  obtain ⟨config, key, usable⟩ := usable_of_exec_executor made settled
  obtain ⟨-, -, rs, -, -, -, -, rfl⟩ := of_exec_executor made
  have byHost : hosts.ByHost := .of_rules (by decide)
  have raised := exec_nodeStatus (Fleet.hasOrdinals_of_resolve resolved) hn
    (Fleet.instancesOn_ne_nil resolved hn) (o := o) rfl usable rfl
  refine ⟨f, resolved, hn, e, _, made, settled, byHost, rfl, raised, ?_⟩
  rintro ⟨t, u, found, -⟩
  cases raised.symm.trans found

end Probe
end Flotilla
