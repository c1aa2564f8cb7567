import Flotilla.Proofs.Deploy.Placement
import Flotilla.Proofs.Files.Path
import Flotilla.Proofs.Fleet.Resolved
import Flotilla.Proofs.Lifecycle.Step
import Flotilla.Proofs.Shell.Chain

/-! From one run to the next, which may be of another variant. What a start starts on a node is what a
deployment of the same fleet has installed there; a stop goes by all units that there are, so whatever
has been started it stops. -/
namespace Flotilla.Fleet
open Deploy Lifecycle Executor

def started? (c : Command) : Option String :=
  match c.asSudo, Shell.tokens c.line with
  | true, some [.word "systemctl", .word "start", .word unit] => some unit
  | _, _ => none

def startedOn (tasks : List Task) (address : String) : List String :=
  (tasks.filter (·.host = address)).filterMap fun t =>
    match t.command with
    | .command c => started? c
    | _ => none

def startTask (n : Node) (unit : String) : Task :=
  ⟨s!"{n.name}/{unit}", n.address, .command (Unit.start unit)⟩

def stopTask (n : Node) (unit : String) : Task :=
  ⟨s!"{n.name}/{unit}", n.address, .command (Unit.stop unit)⟩

def unitLine (p : Plan) (unit : String) : String :=
  Unit.installScript (p.sought (unit ++ ".service")) (Unit.path unit)

def overrideTarget (unit : String) : String := Unit.overrideDirectory unit ++ "/override.conf"

def overrideLine (p : Plan) (unit : String) : String :=
  "mkdir -p " ++ Unit.overrideDirectory unit ++ " && cp " ++ p.sought (unit ++ ".override.conf") ++ " " ++
    overrideTarget unit

/-- What a privileged script does for some units, line by line. -/
def script (line : String → String) (units : List String) : String :=
  Text.joinWith " && " (units.map line)

/-- What the installing steps do on a node: each runs a script with a line for each of some units. Where
the directory can be read in it, so can the files that the script writes. -/
structure Installs (p : Plan) (n : Node) (units : List String) : Prop where
  files : ∀ built, ∃ c, p.command built n .installUnits = some c ∧ c.asSudo ∧
    Shell.script? c.line = some (script (unitLine p) units)
  overrides : ∀ built, ∃ c, p.command built n .installOverrides = some c ∧ c.asSudo ∧
    Shell.script? c.line = some (script (overrideLine p) units)
  reads : Shell.IsPlainWord p.loginDirectory →
    (Shell.tokens (script (unitLine p) units)).map Shell.redirected = some (units.map Unit.path) ∧
      Shell.copied (script (overrideLine p) units) = some (units.map overrideTarget)

/-- What a deployment and a start of one fleet and a stop of another have to do with each other, when
both fleets are of the same nodes. -/
structure Turnover (nodes : List Node) (p : Plan) (c d : Controller) : Prop where
  starts : c.daemonTasks = nodes.flatMap fun n => (startedOn c.daemonTasks n.address).map (startTask n)
  once : ∀ n ∈ nodes, (startedOn c.daemonTasks n.address).Nodup
  installs : ∀ n ∈ nodes, Installs p n (startedOn c.daemonTasks n.address)
  stops : ∀ n ∈ nodes, ∀ unit ∈ startedOn c.daemonTasks n.address,
    d.stopTasks.filter (fun t => t.host = n.address ∧ t.command = .command (Unit.stop unit)) =
      [stopTask n unit]
  keys : (d.stopTasks.map (·.key)).Nodup
  /-- What is started are those tasks. -/
  begun : ∀ q q', exec (c.perform (.transition .startDaemons)) q = (.ok ⟨⟩, q') →
    ∃ id h, q'.daemons = some id ∧ q'.session.handle? id = some h ∧ h.tasks = c.daemonTasks
  /-- All of the other tasks are issued, and nothing else. -/
  ended : ∀ q q', exec (d.perform (.transition .stop)) q = (.ok ⟨⟩, q') →
    q.session.Opens q'.session (d.stopTasks.map (channel (some stopLabel)))

theorem started?_start : ∀ u ∈ unitNames, started? (Unit.start u) = some u := by decide

def units (v : Variant) : List String := (layout v).map (·.name)

theorem units_known {v : Variant} : ∀ u ∈ units v, u ∈ unitNames := by
  cases v <;> decide

section
variable {nodes : List Node} {r : Request} {f : Fleet} (resolves : ResolvesTo nodes r f)
include resolves

theorem daemonTasks_eq {c : Controller} (fleet : c.fleet = f) :
    c.daemonTasks = nodes.flatMap fun n => (units f.scenario.variant).map (startTask n) := by
  rw [Controller.daemonTasks, fleet, resolves.instances, List.map_flatMap]
  simp only [List.map_map, units]
  rfl

theorem startedOn_daemonTasks {c : Controller} (fleet : c.fleet = f) {n : Node} (hn : n ∈ nodes) :
    startedOn c.daemonTasks n.address = units f.scenario.variant := by
  have own : c.daemonTasks.filter (·.host = n.address) =
      (units f.scenario.variant).map (startTask n) := by
    rw [daemonTasks_eq resolves fleet]
    refine filter_flatMap_eq Node.address ?_ (nodup_addresses_of_checkNodes resolves.checked) hn
    intro m t ht
    obtain ⟨u, -, rfl⟩ := List.mem_map.mp ht
    rfl
  have each : ∀ u ∈ units f.scenario.variant, started? (Unit.start u) = some u := fun u hu =>
    started?_start u (units_known u hu)
  rw [startedOn, own, List.filterMap_map]
  exact (List.filterMap_congr each).trans List.filterMap_some

end

open Shell

theorem path_eq {u : String} (h : u ∈ unitNames) :
    Unit.path u = Defaults.unitDirectory ++ "/" ++ (u ++ ".service") := by
  have relative : ∀ u ∈ unitNames, (u ++ ".service").toList.head? ≠ some '/' := by decide
  exact Files.join_below (by decide) (by decide) (relative u h)

theorem overrideDirectory_eq {u : String} (h : u ∈ unitNames) :
    Unit.overrideDirectory u = Defaults.unitDirectory ++ "/" ++ (u ++ ".service.d") := by
  have relative : ∀ u ∈ unitNames, (u ++ ".service.d").toList.head? ≠ some '/' := by decide
  exact Files.join_below (by decide) (by decide) (relative u h)

theorem isPlain_files : ∀ u ∈ unitNames, ("/" ++ (u ++ ".service")).toList.all isPlain ∧
    ("/" ++ (u ++ ".override.conf")).toList.all isPlain := by
  decide

theorem isPlainWord_targets {u : String} (h : u ∈ unitNames) : IsPlainWord (Unit.path u) ∧
    IsPlainWord (Unit.overrideDirectory u) ∧ IsPlainWord (overrideTarget u) := by
  have all : ∀ u ∈ unitNames, IsPlainWord (Defaults.unitDirectory ++ "/" ++ (u ++ ".service")) ∧
      IsPlainWord (Defaults.unitDirectory ++ "/" ++ (u ++ ".service.d")) := by decide
  obtain ⟨file, directory⟩ := all u h
  rw [overrideTarget, path_eq h, overrideDirectory_eq h]
  exact ⟨file, directory, directory.append (by decide)⟩

theorem isPlainWord_sought {p : Plan} (plain : IsPlainWord p.loginDirectory) {name : String}
    (h : ("/" ++ name).toList.all isPlain) : IsPlainWord (p.sought name) := by
  have whole : p.sought name = p.loginDirectory ++ ("/" ++ name) := by
    simp [Plan.sought, toString, String.append_assoc]
  exact whole ▸ plain.append h

def callSpelling (s : String) : Spelling :=
  [("sh", .word "sh"), ("-c", .word "-c"), (quote s, .word s)]

theorem isRight_callSpelling (s : String) : (callSpelling s).IsRight := by
  simp only [callSpelling, Spelling.IsRight, List.forall_mem_cons]
  exact ⟨spells_word (by decide), spells_word (by decide), spells_quote s, by simp⟩

theorem text_callSpelling (s : String) : (callSpelling s).text = (privileged s "").line := by
  simp [privileged, callSpelling, Spelling.text, Text.joinWith, toString, ← String.toList_inj]

def loginSpelling : Spelling := [("sh", .word "sh"), doubled "$HOME", doubled "$(id -un)"]

theorem isRight_loginSpelling : loginSpelling.IsRight := by
  simp only [loginSpelling, Spelling.IsRight, List.forall_mem_cons]
  exact ⟨spells_word (by decide), spells_doubled (by decide) (by decide),
    spells_doubled (by decide) (by decide), by simp⟩

theorem text_callSpelling_login (s : String) :
    (callSpelling s ++ loginSpelling).text = (privileged s Unit.loginArguments).line := by
  have given : Unit.loginArguments = " " ++ loginSpelling.text := by decide
  have called : (privileged s Unit.loginArguments).line =
      (privileged s "").line ++ Unit.loginArguments := by
    simp [privileged, toString]
  have parts : (callSpelling s ++ loginSpelling).text = _ :=
    Spelling.text_append (List.cons_ne_nil _ _) (List.cons_ne_nil _ _)
  rw [parts, text_callSpelling, called, given, String.append_assoc]

theorem script?_units (s : String) : script? (privileged s Unit.loginArguments).line = some s :=
  text_callSpelling_login s ▸ script?_text s isRight_loginSpelling

theorem script?_overrides (s : String) : script? (privileged s "").line = some s := by
  rw [← text_callSpelling]
  exact script?_text s (by simp [Spelling.IsRight])

def fillSpelling : Spelling :=
  [("sed", .word "sed"), ("-e", .word "-e"), doubled "s|@HOME@|$1|g", ("-e", .word "-e"),
    doubled "s|@USER@|$2|g"]

def passSpelling (source target : String) : Spelling :=
  [(source, .word source), (">", .operator ">"), (target, .word target)]

def unitSpelling (p : Plan) (u : String) : Spelling :=
  fillSpelling ++ passSpelling (p.sought (u ++ ".service")) (Unit.path u)

theorem text_unitSpelling (p : Plan) (u : String) : (unitSpelling p u).text = unitLine p u := by
  have fixed : "sed -e \"s|" ++ Unit.homeMarker ++ "|$1|g\" -e \"s|" ++ Unit.userMarker ++ "|$2|g\" " =
      fillSpelling.text ++ " " := by decide
  have line : unitLine p u = "sed -e \"s|" ++ Unit.homeMarker ++ "|$1|g\" -e \"s|" ++ Unit.userMarker ++
      "|$2|g\" " ++ p.sought (u ++ ".service") ++ " > " ++ Unit.path u := rfl
  have written (source target : String) : (passSpelling source target).text =
      source ++ " > " ++ target := by
    simp [passSpelling, Spelling.text, Text.joinWith, ← String.toList_inj]
  rw [unitSpelling, Spelling.text_append (by decide) (by simp [passSpelling]), line, fixed, written]
  simp only [String.append_assoc]

theorem redirected_units {p : Plan} (plain : IsPlainWord p.loginDirectory) {us : List String}
    (known : ∀ u ∈ us, u ∈ unitNames) :
    (tokens (script (unitLine p) us)).map redirected = some (us.map Unit.path) := by
  have right : ∀ u ∈ us, (unitSpelling p u).IsRight := by
    intro u hu
    have file := isPlainWord_sought plain (isPlain_files u (known u hu)).1
    have path := (isPlainWord_targets (known u hu)).1
    have fixed : Spells "sed" (.word "sed") ∧ Spells "-e" (.word "-e") :=
      ⟨spells_word (by decide), spells_word (by decide)⟩
    have redirection : Spells ">" (.operator ">") := fun _ => ⟨.operator ['>'], rfl, rfl⟩
    simp only [unitSpelling, fillSpelling, passSpelling, Spelling.IsRight, List.forall_mem_append,
      List.forall_mem_cons]
    exact ⟨⟨fixed.1, fixed.2, spells_doubled (by decide) (by decide), fixed.2,
      spells_doubled (by decide) (by decide), by simp⟩, spells_word file, redirection, spells_word path,
      by simp⟩
  have each (u : String) (ts : List Token) :
      redirected ((unitSpelling p u).tokens ++ ts) = Unit.path u :: redirected ts := by
    simp [unitSpelling, fillSpelling, passSpelling, doubled, Spelling.tokens, redirected]
  rw [script, Spelling.tokens_chain (fun u _ => text_unitSpelling p u)
    (fun u _ => List.cons_ne_nil _ _) right]
  exact congrArg some (redirected_chain each us)

def makeSpelling (u : String) : Spelling :=
  [("mkdir", .word "mkdir"), ("-p", .word "-p"),
    (Unit.overrideDirectory u, .word (Unit.overrideDirectory u))]

def copySpelling (p : Plan) (u : String) : Spelling :=
  [("cp", .word "cp"), (p.sought (u ++ ".override.conf"), .word (p.sought (u ++ ".override.conf"))),
    (overrideTarget u, .word (overrideTarget u))]

def overrideSpellings (p : Plan) (us : List String) : List Spelling :=
  us.flatMap fun u => [makeSpelling u, copySpelling p u]

theorem joinWith_overrides (p : Plan) (us : List String) :
    script (overrideLine p) us = Text.joinWith " && " ((overrideSpellings p us).map Spelling.text) := by
  have line (u : String) : overrideLine p u =
      (makeSpelling u).text ++ " && " ++ (copySpelling p u).text := by
    rw [overrideLine]
    simp [makeSpelling, copySpelling, Spelling.text, Text.joinWith, ← String.toList_inj]
  induction us with
  | nil => rfl
  | cons u r ih =>
    cases r with
    | nil => exact line u
    | cons v r =>
      have step : script (overrideLine p) (u :: v :: r) =
          overrideLine p u ++ " && " ++ script (overrideLine p) (v :: r) := rfl
      rw [step, ih, line]
      simp [overrideSpellings, Text.joinWith, ← String.toList_inj]

theorem copied_overrides {p : Plan} (plain : IsPlainWord p.loginDirectory) {us : List String}
    (known : ∀ u ∈ us, u ∈ unitNames) :
    copied (script (overrideLine p) us) = some (us.map overrideTarget) := by
  have fixed : Spells "mkdir" (.word "mkdir") ∧ Spells "-p" (.word "-p") ∧ Spells "cp" (.word "cp") :=
    ⟨spells_word (by decide), spells_word (by decide), spells_word (by decide)⟩
  have right : ∀ c ∈ overrideSpellings p us, c.IsRight := by
    refine List.forall_mem_flatMap.mpr fun u hu => ?_
    obtain ⟨-, directory, target⟩ := isPlainWord_targets (known u hu)
    have file := isPlainWord_sought plain (isPlain_files u (known u hu)).2
    simp only [makeSpelling, copySpelling, Spelling.IsRight, List.forall_mem_cons]
    exact ⟨⟨fixed.1, fixed.2.1, spells_word directory, by simp⟩,
      ⟨fixed.2.2, spells_word file, spells_word target, by simp⟩, by simp⟩
  have begun : ∀ c ∈ overrideSpellings p us, c ≠ [] := by
    refine List.forall_mem_flatMap.mpr fun u _ => ?_
    simp [makeSpelling, copySpelling]
  have words : ∀ c ∈ overrideSpellings p us, c.IsPlain := by
    refine List.forall_mem_flatMap.mpr fun u _ => ?_
    simp only [makeSpelling, copySpelling, Spelling.IsPlain, List.forall_mem_cons]
    exact ⟨⟨rfl, rfl, rfl, by simp⟩, ⟨rfl, rfl, rfl, by simp⟩, by simp⟩
  rw [joinWith_overrides, copied, effects_chain rfl (fun _ _ => rfl) begun right words,
    overrideSpellings, List.filterMap_flatMap, List.map_eq_flatMap]
  rfl

theorem overrideLine_eq (p : Plan) (i : Instance) : p.overrideLine i = overrideLine p i.name := by
  have parts : p.overrideLine i = "mkdir -p " ++ Unit.overrideDirectory i.name ++ " && cp " ++
      p.loginDirectory ++ "/" ++ (i.name ++ ".override.conf") ++ " " ++ Unit.overrideDirectory i.name ++
      "/override.conf" := rfl
  have sought : p.sought (i.name ++ ".override.conf") =
      p.loginDirectory ++ "/" ++ (i.name ++ ".override.conf") := rfl
  rw [parts, overrideLine, overrideTarget, sought]
  simp only [String.append_assoc]

theorem script_of_installCommand {p : Plan} {instances : List Instance}
    {fileName content line : Instance → String} {arguments : String} {c : Command}
    (sent : p.installCommand instances fileName content line arguments = some c)
    (called : ∀ s, script? (privileged s arguments).line = some s) {unitLine : String → String}
    (each : ∀ i, line i = unitLine i.name) :
    c.asSudo ∧ script? c.line = some (script unitLine (instances.map (·.name))) := by
  obtain ⟨text, isPrivileged, -⟩ := of_installCommand sent
  have lines : instances.map line = (instances.map (·.name)).map unitLine := by
    simp [List.map_congr_left fun i _ => each i]
  refine ⟨isPrivileged, ?_⟩
  rw [text, called, script, lines]

theorem installs {nodes : List Node} {r : Request} {f : Fleet} (resolves : ResolvesTo nodes r f)
    {p : Plan} (fleet : p.fleet = f) {n : Node} (hn : n ∈ nodes) :
    Installs p n (units f.scenario.variant) := by
  have names : (p.fleet.instancesOn n).map (·.name) = units f.scenario.variant := by
    rw [fleet, resolves.instancesOn_eq (resolves.kept ▸ hn), List.map_map]
    rfl
  have known : ∀ u ∈ units f.scenario.variant, u ∈ unitNames := units_known
  have served : ¬ (p.fleet.instancesOn n).isEmpty := by
    intro none
    rw [List.isEmpty_iff.mp none, units] at names
    cases v : f.scenario.variant <;> rw [v] at names <;> cases names
  rw [← names] at known ⊢
  constructor
  case files =>
    intro built
    have sent : p.command built n .installUnits = some _ := if_neg served
    exact ⟨_, sent, script_of_installCommand sent script?_units fun i => rfl⟩
  case overrides =>
    intro built
    have sent : p.command built n .installOverrides = some _ := if_neg served
    exact ⟨_, sent, script_of_installCommand sent script?_overrides (overrideLine_eq p)⟩
  case reads => exact fun plain => ⟨redirected_units plain known, copied_overrides plain known⟩

section
variable {nodes : List Node} {r : Request} {f : Fleet} (resolves : ResolvesTo nodes r f)
include resolves

theorem stopTasks_eq {d : Controller} (fleet : d.fleet = f) :
    d.stopTasks = nodes.flatMap fun n => unitNames.map (stopTask n) := by
  rw [Controller.stopTasks, fleet, resolves.kept]
  rfl

theorem filter_stopTasks {d : Controller} (fleet : d.fleet = f) {n : Node} (hn : n ∈ nodes) {u : String}
    (hu : u ∈ unitNames) :
    d.stopTasks.filter (fun t => t.host = n.address ∧ t.command = .command (Unit.stop u)) =
      [stopTask n u] := by
  have own : d.stopTasks.filter (·.host = n.address) = unitNames.map (stopTask n) := by
    rw [stopTasks_eq resolves fleet]
    refine filter_flatMap_eq Node.address ?_ (nodup_addresses_of_checkNodes resolves.checked) hn
    intro m t ht
    obtain ⟨v, -, rfl⟩ := List.mem_map.mp ht
    rfl
  have commands : (unitNames.map fun u => Command.Given.command (Unit.stop u)).Nodup := by decide
  have single : (unitNames.map (stopTask n)).filter (·.command = .command (Unit.stop u)) =
      [stopTask n u] := filter_map_eq _ Task.command (fun _ => rfl) commands hu
  rw [← single, ← own, List.filter_filter]
  simp [Bool.and_comm]

theorem nodup_stopKeys {d : Controller} (fleet : d.fleet = f) : (d.stopTasks.map (·.key)).Nodup := by
  have distinct : unitNames.Nodup := by decide
  have keys := nodup_keys (hasOrdinals_of_checkNodes resolves.checked) distinct
  rw [stopTasks_eq resolves fleet]
  simpa [List.map_flatMap, Function.comp_def, stopTask] using keys

end

theorem daemons_of_perform {c : Controller} {q q' : Lifecycle.Progress}
    (done : exec (c.perform (.transition .startDaemons)) q = (.ok ⟨⟩, q')) :
    ∃ id h, q'.daemons = some id ∧ q'.session.handle? id = some h ∧ h.tasks = c.daemonTasks := by
  by_cases admitted : c.Admits .startDaemons q
  · obtain ⟨s, ready, -⟩ := c.ready_eq .startDaemons q
    obtain ⟨s', h, issued, -, found, tasks, -⟩ :=
      exec_dispatch c.executor (some Transition.startDaemons.label) (c.tasks .startDaemons) s
    rw [c.exec_admitted admitted, ready] at done
    let begun : Lifecycle.Progress := { q with phase := Transition.startDaemons.busy, session := s }
    rw [c.exec_fanOut_issue (q := begun) (by decide) issued found] at done
    cases done
    exact ⟨_, h, rfl, found, tasks⟩
  · obtain ⟨why, refused⟩ := c.exec_refused admitted
    rw [refused] at done
    cases done

theorem opens_of_stop {d : Controller} {q q' : Lifecycle.Progress}
    (done : exec (d.perform (.transition .stop)) q = (.ok ⟨⟩, q')) :
    q.session.Opens q'.session (d.stopTasks.map (channel (some stopLabel))) := by
  by_cases admitted : d.Admits .stop q
  · obtain ⟨x, p', ran, made⟩ := d.exec_transition admitted
    rw [ran] at done
    cases done
    exact made.opens
  · obtain ⟨why, refused⟩ := d.exec_refused admitted
    rw [refused] at done
    cases done

end Flotilla.Fleet
