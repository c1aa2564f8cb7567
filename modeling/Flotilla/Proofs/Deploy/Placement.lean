import Flotilla.Deploy.Step
import Flotilla.Proofs.Files.Home
import Flotilla.Proofs.Host.Protocol
import Flotilla.Proofs.Shell.Line

/-! Where files are put and where they are looked for. A file is uploaded below the directory by its whole
path, which is then made relative to the home directory; a privileged script names it below the directory
that was made relative before. The two come to the same unless the directory is the home directory. -/
namespace Flotilla

namespace Host

def Event.put? : Event → Option (String × Source)
  | .put remote source => some (remote, source)
  | _ => none

section
variable {b : Behaviour} {ι : Type} {is : List ι}
  (accepted : ∀ i < is.length, b.putError? i = none) {remote content : ι → String}
include accepted

theorem Exchange.events_putAll_contents :
    (putAll b (is.map fun i => ⟨remote i, none, some (content i)⟩)).events =
      is.map fun i => .put (Command.remotePath (remote i)) (.content (content i)) := by
  have all : Behaviour.uploadsFailure? b.putErrors
      (is.map fun i => ⟨remote i, none, some (content i)⟩) = none := by
    refine Behaviour.uploadsFailure?_eq_none_iff.mpr fun i u found => ?_
    obtain ⟨bound, rfl⟩ := List.getElem?_eq_some_iff.mp found
    rw [List.getElem_map]
    exact ⟨rfl, accepted i (by simpa using bound)⟩
  refine List.map_injective_iff.mpr (fun _ _ => Option.some.inj) ((events_putEach_of_ok all).trans ?_)
  rw [List.map_map, List.map_map]
  rfl

theorem Exchange.puts_perform {c : Command}
    (uploads : c.uploads = is.map fun i => ⟨remote i, none, some (content i)⟩) :
    (perform b c).events.filterMap (·.put?) =
      is.map fun i => (Command.remotePath (remote i), .content (content i)) := by
  have last : (if (Behaviour.uploadsFailure? b.putErrors c.uploads).isNone then [call c .waited]
      else []).filterMap (·.put?) = [] := by
    split <;> rfl
  rw [events_perform, used, List.filterMap_append, last, List.append_nil, uploads,
    events_putAll_contents accepted, List.filterMap_map]
  exact congrFun List.filterMap_eq_map is

end

end Host

namespace Deploy

/-- What a copy reads and where a file is put are the same: the command runs one privileged script with
a copy for each instance, and the `i`th file that is put on a host lies where the `i`th copy looks for it
and is that of the same instance. -/
structure Copies (c : Command) (instances : List Instance) (copy : String → Instance → String)
    (content : Instance → String) (arguments : String) : Prop where
  isPrivileged : c.asSudo
  reads : ∃ sources, sources.length = instances.length ∧
    c.line = (privileged (Text.joinWith " && " (List.zipWith copy sources instances)) arguments).line ∧
    ∀ b : Host.Behaviour, (∀ i < instances.length, b.putError? i = none) →
      (Host.Exchange.perform b c).events.filterMap (·.put?) =
        sources.zip (instances.map fun i => .content (content i))

def unitCopy (source : String) (i : Instance) : String := Unit.installScript source (Unit.path i.name)

def overrideCopy (source : String) (i : Instance) : String :=
  let target := Unit.overrideDirectory i.name
  s!"mkdir -p {target} && cp {source} {target}/override.conf"

/-- Both installing steps of a node read the files that they have uploaded. -/
structure Plan.ReadsUploads (p : Plan) (n : Node) : Prop where
  units : ∀ built, ∃ c, p.command built n .installUnits = some c ∧
    Copies c (p.fleet.instancesOn n) unitCopy (Unit.file · p.directory) Unit.loginArguments
  overrides : ∀ built, ∃ c, p.command built n .installOverrides = some c ∧
    Copies c (p.fleet.instancesOn n) overrideCopy Unit.overrideFile ""

theorem privileged_inj {a b arguments : String}
    (h : (privileged a arguments).line = (privileged b arguments).line) : a = b := by
  have parts : "sh -c ".toList ++ ((Shell.quote a).toList ++ arguments.toList) =
      "sh -c ".toList ++ ((Shell.quote b).toList ++ arguments.toList) := by
    simpa [privileged, toString, ← String.toList_inj] using h
  have quoted := List.append_cancel_right (List.append_cancel_left parts)
  exact Shell.quote_inj (String.toList_inj.mp quoted)

theorem length_joinWith_map {ι : Type} {f g : ι → String} {k : Nat} (sep : String)
    (longer : ∀ i, (f i).length = (g i).length + k) (is : List ι) :
    (Text.joinWith sep (is.map f)).length = (Text.joinWith sep (is.map g)).length + k * is.length := by
  induction is with
  | nil => rfl
  | cons i r ih =>
    cases r with
    | nil => simp [Text.joinWith, longer]
    | cons j r =>
      have rest : k * (i :: j :: r).length = k + k * (j :: r).length := by
        rw [List.length_cons, Nat.mul_succ, Nat.add_comm]
      simp only [List.map_cons] at ih
      simp only [List.map_cons, Text.joinWith, String.length_append, longer, ih, rest]
      omega

/-- Where a privileged script looks for a file that goes with it. -/
def Plan.sought (p : Plan) (name : String) : String := s!"{p.loginDirectory}/{name}"

def Plan.placed (p : Plan) (name : String) : String := Command.remotePath s!"{p.directory}/{name}"

theorem sought_eq_placed {p : Plan} (h : p.directory ≠ "~") (name : String) :
    p.sought name = p.placed name := (Command.remotePath_below h name).symm

theorem length_sought {p : Plan} (home : p.directory = "~") (name : String) :
    (p.sought name).length = (p.placed name).length + 2 := by
  have sought : p.sought name = "~/" ++ name := by
    unfold Plan.sought Plan.loginDirectory
    rw [home]
    rfl
  have placed : p.placed name = name := by
    unfold Plan.placed
    rw [home]
    exact Command.remotePath_tilde name
  rw [sought, placed, String.length_append, Nat.add_comm]
  rfl

section
variable {p : Plan} {instances : List Instance} {fileName : Instance → String}
  {copy : String → Instance → String} {content : Instance → String} {arguments : String} {c : Command}

theorem of_installCommand {line : Instance → String}
    (sent : p.installCommand instances fileName content line arguments = some c) :
    c.line = (privileged (Text.joinWith " && " (instances.map line)) arguments).line ∧ c.asSudo ∧
      c.uploads = instances.map fun i => ⟨s!"{p.directory}/{fileName i}", none, some (content i)⟩ := by
  unfold Plan.installCommand at sent
  split at sent
  · cases sent
  · cases sent
    exact ⟨rfl, rfl, rfl⟩

theorem copies_iff_script (sent : p.installCommand instances fileName content
      (fun i => copy (p.sought (fileName i)) i) arguments = some c) :
    Copies c instances copy content arguments ↔
      Text.joinWith " && " (instances.map fun i => copy (p.sought (fileName i)) i) =
        Text.joinWith " && " (instances.map fun i => copy (p.placed (fileName i)) i) := by
  obtain ⟨line, isPrivileged, uploads⟩ := of_installCommand sent
  let sources := instances.map fun i => p.placed (fileName i)
  have copied : List.zipWith copy sources instances =
      instances.map fun i => copy (p.placed (fileName i)) i := by
    rw [List.zipWith_map_left, List.zipWith_self]
  have puts (b : Host.Behaviour) (accepted : ∀ i < instances.length, b.putError? i = none) :
      (Host.Exchange.perform b c).events.filterMap (·.put?) =
        sources.zip (instances.map fun i => .content (content i)) := by
    rw [List.zip_map', Host.Exchange.puts_perform accepted uploads]
    rfl
  constructor
  · rintro ⟨-, others, count, script, placed⟩
    have same := (placed {} fun _ _ => rfl).symm.trans (puts {} fun _ _ => rfl)
    have names : others = sources := by
      have left := congrArg (List.map Prod.fst) same
      rwa [List.map_fst_zip (by simp [count]), List.map_fst_zip (by simp [sources])] at left
    rw [line, names, copied] at script
    exact privileged_inj script
  · intro script
    refine ⟨isPrivileged, sources, List.length_map .., ?_, puts⟩
    rw [line, script, copied]

variable (copy) in
theorem copies_iff (served : instances ≠ [])
    (longer : ∀ i s t, (copy s i).length + t.length = (copy t i).length + s.length) :
    (∃ c, p.installCommand instances fileName content (fun i => copy (p.sought (fileName i)) i)
        arguments = some c ∧ Copies c instances copy content arguments) ↔ p.directory ≠ "~" := by
  constructor
  · rintro ⟨c, sent, copies⟩ home
    have script := (copies_iff_script sent).mp copies
    have lengths := length_joinWith_map (k := 2) (f := fun i => copy (p.sought (fileName i)) i)
      (g := fun i => copy (p.placed (fileName i)) i) " && " (fun i => by
        have more := length_sought home (fileName i)
        have copied := longer i (p.sought (fileName i)) (p.placed (fileName i))
        omega) instances
    have some_ := List.length_pos_iff.mpr served
    rw [script] at lengths
    omega
  · intro other
    have sent : p.installCommand instances fileName content (fun i => copy (p.sought (fileName i)) i)
      arguments = some _ := if_neg (by simpa using served)
    refine ⟨_, sent, (copies_iff_script sent).mpr ?_⟩
    simp only [sought_eq_placed other]

end

theorem units_iff {p : Plan} {n : Node} (served : p.fleet.instancesOn n ≠ []) :
    (∃ c, p.installUnits n = some c ∧ Copies c (p.fleet.instancesOn n) unitCopy
      (Unit.file · p.directory) Unit.loginArguments) ↔ p.directory ≠ "~" := by
  have longer (i : Instance) (s t : String) :
      (unitCopy s i).length + t.length = (unitCopy t i).length + s.length := by
    unfold unitCopy Unit.installScript
    simp only [toString, String.length_append]
    omega
  exact copies_iff unitCopy served longer

theorem overrides_iff {p : Plan} {n : Node} (served : p.fleet.instancesOn n ≠ []) :
    (∃ c, p.installOverrides n = some c ∧ Copies c (p.fleet.instancesOn n) overrideCopy
      Unit.overrideFile "") ↔ p.directory ≠ "~" := by
  have lines : p.overrideLine = fun i => overrideCopy (p.sought (Plan.overrideFileName i)) i := by
    funext i
    unfold Plan.overrideLine overrideCopy Plan.sought
    simp only [toString, String.append_assoc]
  have longer (i : Instance) (s t : String) :
      (overrideCopy s i).length + t.length = (overrideCopy t i).length + s.length := by
    unfold overrideCopy
    simp only [toString, String.length_append]
    omega
  rw [Plan.installOverrides, lines]
  exact copies_iff overrideCopy served longer

/-- Both installing steps read what they have uploaded unless the directory is the home directory. -/
theorem Plan.readsUploads_iff {p : Plan} {remote : String} {n : Node}
    (given : Unit.readDirectory (.text remote) = .ok p.directory)
    (served : p.fleet.instancesOn n ≠ []) :
    p.ReadsUploads n ↔ Text.dropTrailing '/' remote ≠ "~" := by
  have stripped : Text.dropTrailing '/' remote = p.directory := Except.ok.inj given
  rw [stripped]
  constructor
  · intro h
    exact (units_iff served).mp (h.units ⟨none, none⟩)
  · intro other
    exact ⟨fun _ => (units_iff served).mpr other, fun _ => (overrides_iff served).mpr other⟩

theorem Plan.readsUploads_below_home :
    let t : Topology := ⟨"a:27736", 1⟩
    let scenario : Scenario := ⟨.standard, 10, 100, .text "inputs"⟩
    let p : Plan := ⟨⟨[⟨0, "a"⟩], t, scenario, [Fleet.place t scenario ⟨0, "a"⟩ Fleet.firstSlot]⟩,
      "~/block_chat", none⟩
    Unit.readDirectory (.text "~/block_chat/") = .ok p.directory ∧
      p.fleet.instancesOn ⟨0, "a"⟩ ≠ [] ∧ p.ReadsUploads ⟨0, "a"⟩ :=
  have given : Unit.readDirectory (.text "~/block_chat/") = .ok "~/block_chat" := rfl
  ⟨given, by decide, (Plan.readsUploads_iff given (by decide)).mpr (by decide)⟩

/-- With the home directory itself, the script looks below a tilde that the upload has lost. -/
theorem Plan.not_readsUploads_home :
    let t : Topology := ⟨"a:27736", 1⟩
    let scenario : Scenario := ⟨.standard, 10, 100, .text "inputs"⟩
    let p : Plan := ⟨⟨[⟨0, "a"⟩], t, scenario, [Fleet.place t scenario ⟨0, "a"⟩ Fleet.firstSlot]⟩,
      "~", none⟩
    Unit.readDirectory (.text "~") = .ok p.directory ∧ p.fleet.instancesOn ⟨0, "a"⟩ ≠ [] ∧
      ¬ p.ReadsUploads ⟨0, "a"⟩ ∧ p.sought "block_chat.service" = "~/block_chat.service" ∧
      p.placed "block_chat.service" = "block_chat.service" := by
  refine ⟨rfl, by decide, fun h => ?_, by decide, by decide⟩
  exact (units_iff (by decide)).mp (h.units ⟨none, none⟩) rfl

end Deploy
end Flotilla
