import Flotilla.Lifecycle.Controller
import Flotilla.Proofs.Deploy.Directory
import Flotilla.Proofs.Deploy.Placement
import Flotilla.Proofs.Fleet.Resolved
import Flotilla.Proofs.Shell.Chain
import Flotilla.Proofs.Unit.Override

/-! A daemon and its helper. The one reads its variables from a file that a deployment ships, the other
from a line that a start sends; both are written from the bindings of the same instance, and are read
back here as they are found on the hosts. -/
namespace Flotilla.Fleet
open Deploy Lifecycle

def overridePath (p : Plan) (unit : String) : String := s!"{p.directory}/{unit}.override.conf"

/-- What a deployment sends to an instance's node: one file under the name of its unit. -/
def ShipsOverride (p : Plan) (i : Instance) (file : String) : Prop :=
  ∀ built, ∃ c, p.command built i.node .installOverrides = some c ∧
    c.uploads.filter (·.remote = overridePath p i.name) = [⟨overridePath p i.name, none, some file⟩]

/-- What a start sends to an instance's node: one line under its key, which exports the variables after
it has changed to the directory. The whole line is read where the directory can be. -/
structure StartsHelper (c : Controller) (i : Instance) (env : List (String × String)) : Prop where
  sends : ∃ exports, Shell.exported exports = some env ∧
    c.helperTasks.filter (·.key = i.key) = [⟨i.key, i.node.address,
      .command { line := s!"cd {c.directory} && {exports} && ./target/release/helper" }⟩]
  reads : Shell.IsPlainWord c.directory → ∀ t ∈ c.helperTasks, t.key = i.key →
    ∃ command, t.command = .command command ∧ Shell.exported command.line = some env

/-- The files and the variables that a fleet is installed and started with, read from what is sent. -/
structure Paired (f : Fleet) (p : Plan) (c : Controller) (file : Instance → String)
    (env : Instance → List (String × String)) : Prop where
  ships : ∀ i ∈ f.instances, ShipsOverride p i (file i)
  lines : ∀ i ∈ f.instances, Text.splitOn '\n' (file i) =
    "[Service]" :: (i.bindings.daemonEnvironment.map fun v => s!"Environment=\"{v.1}={v.2}\"") ++ [""]
  ordered : ∀ i ∈ f.instances, (i.bindings.daemonEnvironment.map (·.1)).Pairwise (· < ·)
  environment : ∀ i ∈ f.instances, Unit.environment (file i) = i.bindings.daemonEnvironment
  starts : ∀ i ∈ f.instances, StartsHelper c i (env i)
  port : ∀ i ∈ f.instances, ∃ socket port, (env i).lookup "DAEMON_SOCKET" = some socket ∧
    Text.splitLast ':' socket = some ("127.0.0.1", port) ∧
    (Unit.environment (file i)).lookup "BLOCK_CHAT_NETWORK_PORT" = some port
  apart : ∀ i ∈ f.instances, ∀ j ∈ f.instances, i.node = j.node → i ≠ j →
    (env i).lookup "DAEMON_SOCKET" ≠ (env j).lookup "DAEMON_SOCKET"
  peer : ∀ i ∈ f.instances, (Unit.environment (file i)).lookup "BLOCK_CHAT_BOOTSTRAP_PEER_SOCKET" =
    some f.topology.bootstrapSocket
  size : ∀ i ∈ f.instances, (Unit.environment (file i)).lookup "BLOCK_CHAT_NETWORK_SIZE" =
    some (toString f.topology.networkSize)

def helperVariables (i : Instance) : List (String × String) :=
  i.bindings.helperEnvironment.map fun v => (v.1, v.2.shown)

theorem isName_helperVariables (i : Instance) : ∀ v ∈ helperVariables i, Shell.IsName v.1 := by
  simp only [helperVariables, Bindings.helperEnvironment, List.map_cons, List.map_nil,
    List.forall_mem_cons]
  decide

theorem exported_helper {i : Instance} {directory : String} (plain : Shell.IsPlainWord directory) :
    Shell.exported (Unit.helper i directory).line = some (helperVariables i) := by
  have read := Piece.tokens_line plain (Piece.fits_helper i)
  rw [← line_helper] at read
  have line : Shell.exported (Unit.helper i directory).line =
      some ((["cd", directory] :: ((helperVariables i).map Shell.exporting ++
        [["./target/release/helper"]])).filterMap Shell.export?) := by
    rw [Shell.exported, Shell.effects, read]
    rfl
  have other : Shell.export? ["cd", directory] = none ∧
    Shell.export? ["./target/release/helper"] = none := ⟨rfl, rfl⟩
  rw [line, List.filterMap_cons, List.filterMap_append,
    Shell.filterMap_exporting (isName_helperVariables i)]
  simp [other]

theorem overridePath_inj {p : Plan} {u v : String} (h : overridePath p u = overridePath p v) :
    u = v := by
  simpa [overridePath, toString, ← String.toList_inj] using h

section
variable {nodes : List Node} {r : Request} {f : Fleet} (resolved : resolve nodes r = .ok f)
include resolved

theorem nodup_names_on {n : Node} (hn : n ∈ f.nodes) : ((f.instancesOn n).map (·.name)).Nodup := by
  rw [(resolvesTo_of_resolve resolved).instancesOn_eq hn]
  simpa [Function.comp_def, place] using nodup_layout f.scenario.variant

theorem shipsOverride {p : Plan} (fleet : p.fleet = f) {i : Instance} (hi : i ∈ f.instances) :
    ShipsOverride p i (Unit.overrideFile i) := by
  intro built
  have listed : i ∈ p.fleet.instancesOn i.node := fleet ▸ List.mem_filter.mpr ⟨hi, by simp⟩
  obtain ⟨c, sent⟩ : ∃ c, p.command built i.node .installOverrides = some c :=
    ⟨_, if_neg (by simpa using List.ne_nil_of_mem listed)⟩
  refine ⟨c, sent, ?_⟩
  obtain ⟨-, -, uploads⟩ := of_installCommand sent
  have distinct : ((p.fleet.instancesOn i.node).map fun j => overridePath p j.name).Nodup := by
    have names := nodup_names_on resolved (node_mem resolved hi)
    have paths := names.map fun _ _ same => overridePath_inj (p := p) same
    rwa [List.map_map, ← fleet] at paths
  have named (j : Instance) : s!"{p.directory}/{Plan.overrideFileName j}" = overridePath p j.name := by
    simp [Plan.overrideFileName, overridePath, toString, String.append_assoc]
  simp only [named] at uploads
  rw [uploads]
  exact filter_map_eq (g := fun j => ⟨overridePath p j.name, none, some (Unit.overrideFile j)⟩)
    (fun j => overridePath p j.name) Upload.remote (fun _ => rfl) distinct listed

theorem startsHelper {c : Controller} (fleet : c.fleet = f) {i : Instance} (hi : i ∈ f.instances) :
    StartsHelper c i (helperVariables i) := by
  have own : c.helperTasks.filter (·.key = i.key) =
      [⟨i.key, i.node.address, .command (Unit.helper i c.directory)⟩] := by
    rw [Controller.helperTasks, fleet]
    exact filter_map_eq Instance.key Executor.Task.key (fun _ => rfl) (nodup_instance_keys resolved) hi
  refine ⟨⟨_, ?_, own⟩, fun plain t ht key => ?_⟩
  · exact (Shell.exported_exportLine (isName_helperVariables i)).trans
      (congrArg some (sortByName_helperEnvironment i.bindings))
  · have alone : t ∈ c.helperTasks.filter (·.key = i.key) :=
      List.mem_filter.mpr ⟨ht, by simpa using key⟩
    obtain rfl := List.mem_singleton.mp (own ▸ alone)
    exact ⟨_, rfl, exported_helper plain⟩

theorem splitLast_daemonSocket : ∀ i ∈ f.instances, Text.splitLast ':' i.bindings.daemonSocket =
    some ("127.0.0.1", toString i.bindings.networkPort) := by
  refine (resolvesTo_of_resolve resolved).forall_instances.mpr fun n _ slot _ => ?_
  exact Text.splitLast_eq (by simp [place, toString]) (Text.notMem_toString (by decide) _)

theorem bindings_topology : ∀ i ∈ f.instances,
    i.bindings.bootstrapSocket = f.topology.bootstrapSocket ∧
      i.bindings.networkSize = f.topology.networkSize :=
  (resolvesTo_of_resolve resolved).forall_instances.mpr fun _ _ _ _ => ⟨rfl, rfl⟩

theorem networkPort_ne {i j : Instance} (hi : i ∈ f.instances) (hj : j ∈ f.instances)
    (node : i.node = j.node) (other : i ≠ j) : i.bindings.networkPort ≠ j.bindings.networkPort := by
  intro same
  have endpoint : i.endpoint = j.endpoint := by rw [Instance.endpoint, Instance.endpoint, node, same]
  exact other (List.inj_on_of_nodup_map (resolvesTo_of_resolve resolved).nodup_endpoints hi hj endpoint)

end

end Flotilla.Fleet
