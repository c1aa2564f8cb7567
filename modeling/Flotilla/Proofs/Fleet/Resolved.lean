import Flotilla.Proofs.Fleet.Keys
import Flotilla.Proofs.Text.Pieces

/-! What a fleet is like that has been resolved. Its checks see to it that nodes are told apart by
their ordinals and by their addresses; the layout of a node is the same on all of them, and its units
and ports are told apart. From both it follows that no two instances get into each other's way. -/
namespace Flotilla.Fleet

/-- A fleet that came of nodes and a request: what was asked for has been read, and each node has the
instances of the variant's layout. -/
structure ResolvesTo (nodes : List Node) (r : Request) (f : Fleet) : Prop where
  checked : checkNodes nodes = .ok ()
  kept : f.nodes = nodes
  variant : Variant.parse r.variant = .ok f.scenario.variant
  staking : readPositive .staking r.staking = .ok f.scenario.staking
  elevatedStaking : readPositive .elevatedStaking r.elevatedStaking = .ok f.scenario.elevatedStaking
  networkSize : readNetworkSize r.networkSize (f.scenario.variant.perNode * nodes.length) =
    .ok f.topology.networkSize
  inputFolder : readInputFolder r.inputFolder f.topology.networkSize = .ok f.scenario.inputFolder
  bootstrapSocket : ∃ host, (bootstrapHost r.bootstrapHost nodes).write = .ok host ∧
    f.topology.bootstrapSocket = s!"{host}:{Defaults.bootstrapPort}"
  instances : f.instances = nodes.flatMap fun n =>
    (layout f.scenario.variant).map (place f.topology f.scenario n)

theorem resolvesTo_of_resolve {nodes : List Node} {r : Request} {f : Fleet}
    (resolved : resolve nodes r = .ok f) : ResolvesTo nodes r f := by
  obtain ⟨_, checked, resolved⟩ := ok_of_bind resolved
  obtain ⟨v, variant, resolved⟩ := ok_of_bind resolved
  obtain ⟨staking, hs, resolved⟩ := ok_of_bind resolved
  obtain ⟨elevated, he, resolved⟩ := ok_of_bind resolved
  obtain ⟨size, hn, resolved⟩ := ok_of_bind resolved
  obtain ⟨folder, hf, resolved⟩ := ok_of_bind resolved
  obtain ⟨host, written, resolved⟩ := ok_of_bind resolved
  cases resolved
  exact ⟨checked, rfl, variant, hs, he, hn, hf, ⟨host, written, rfl⟩, rfl⟩

theorem ne_nil_of_checkNodes {nodes : List Node} (h : checkNodes nodes = .ok ()) : nodes ≠ [] := by
  rintro rfl
  cases h

theorem nodup_addresses_of_checkNodes {nodes : List Node} (h : checkNodes nodes = .ok ()) :
    (nodes.map (·.address)).Nodup := by
  simp only [checkNodes] at h
  split_ifs at h with _ _ _ shared
  simpa [Roster.isDistinct] using shared

theorem le_of_readNetworkSize {v : Value} {instances n : Nat}
    (h : readNetworkSize v instances = .ok n) : instances ≤ n := by
  unfold readNetworkSize at h
  split at h
  · cases h
    exact Nat.le_refl _
  · obtain ⟨m, -, h⟩ := ok_of_bind h
    split_ifs at h with small
    cases h
    exact Nat.le_of_not_lt small

def roles : Variant → List Role
  | .dualInstance => [.primary, .secondary]
  | _ => [.primary]

theorem map_role_layout (v : Variant) : (layout v).map (·.role) = roles v := by cases v <;> rfl

theorem length_layout (v : Variant) : (layout v).length = v.perNode := by cases v <;> rfl

theorem nodup_layout_ports (v : Variant) :
    ((layout v).flatMap fun slot => [slot.bootstrapPort, slot.networkPort]).Nodup := by
  cases v <;> decide

theorem nodup_network_ports (v : Variant) : ((layout v).map (·.networkPort)).Nodup := by
  cases v <;> decide

theorem role_of_mem_layout {v : Variant} {slot : Slot} (h : slot ∈ layout v) (unfair : v = .unfair) :
    slot.role = .primary := by
  subst unfair
  obtain rfl := List.mem_singleton.mp h
  rfl

/-- An address and a port can be told from the socket they make: a port holds no colon. -/
theorem socket_inj {a b : String} {p q : Nat} (h : s!"{a}:{p}" = s!"{b}:{q}") : a = b ∧ p = q := by
  have cut (a : String) (p : Nat) : Text.splitLast ':' s!"{a}:{p}" = some (a, toString p) :=
    Text.splitLast_eq (by simp [toString]) (Text.notMem_toString (by decide) p)
  have parts := (cut a p).symm.trans (h ▸ cut b q)
  obtain ⟨address, port⟩ := Prod.mk.inj (Option.some.inj parts)
  exact ⟨address, Text.toString_inj port⟩

section
variable {nodes : List Node} {r : Request} {f : Fleet} (resolves : ResolvesTo nodes r f)
include resolves

theorem ResolvesTo.nodup_nodes : f.nodes.Nodup := by
  rw [resolves.kept]
  exact .of_map _ (nodup_addresses_of_checkNodes resolves.checked)

theorem ResolvesTo.forall_instances {P : Instance → Prop} : (∀ i ∈ f.instances, P i) ↔
    ∀ n ∈ f.nodes, ∀ slot ∈ layout f.scenario.variant, P (place f.topology f.scenario n slot) := by
  rw [resolves.instances, resolves.kept]
  simp only [List.mem_flatMap, List.mem_map]
  constructor
  · intro all n hn slot listed
    exact all _ ⟨n, hn, slot, listed, rfl⟩
  · rintro all _ ⟨n, hn, slot, listed, rfl⟩
    exact all n hn slot listed

theorem ResolvesTo.instancesOn_eq {n : Node} (hn : n ∈ f.nodes) :
    f.instancesOn n = (layout f.scenario.variant).map (place f.topology f.scenario n) := by
  rw [instancesOn, resolves.instances]
  refine filter_flatMap_eq id ?_ ?_ (resolves.kept ▸ hn)
  · intro m i hi
    obtain ⟨slot, -, rfl⟩ := List.mem_map.mp hi
    rfl
  · simpa [resolves.kept] using resolves.nodup_nodes

theorem ResolvesTo.length_instances :
    f.instances.length = f.scenario.variant.perNode * f.nodes.length := by
  rw [resolves.instances, resolves.kept, List.length_flatMap]
  simp [length_layout, Nat.mul_comm]

theorem ResolvesTo.head?_instances : ∃ i, f.instances.head? = some i ∧ i.node.id = 0 ∧
    i.role = .primary ∧ i.bindings.bootstrapPort = Defaults.bootstrapPort := by
  obtain ⟨n, others, split⟩ := List.exists_cons_of_ne_nil (ne_nil_of_checkNodes resolves.checked)
  have ordinal : n.id = 0 := by
    have ordered := eq_of_beq (hasOrdinals_of_checkNodes resolves.checked)
    rw [split] at ordered
    simpa [List.range_succ_eq_map] using congrArg List.head? ordered
  obtain ⟨slots, primary⟩ : ∃ slots, layout f.scenario.variant = firstSlot :: slots := by
    cases f.scenario.variant <;> exact ⟨_, rfl⟩
  refine ⟨place f.topology f.scenario n firstSlot, ?_, ordinal, rfl, rfl⟩
  rw [resolves.instances, split, primary]
  rfl

theorem ResolvesTo.nodup_endpoints : (f.instances.map (·.endpoint)).Nodup := by
  have addresses := nodup_addresses_of_checkNodes resolves.checked
  have sockets := nodup_flatMap_map (f := fun (n : Node) (p : Nat) => s!"{n.address}:{p}") addresses
    (nodup_network_ports f.scenario.variant) fun n _ m _ p q same => socket_inj same
  rw [resolves.instances]
  simpa [List.map_flatMap, Function.comp_def, Instance.endpoint, place] using sockets

end

/-- What keeps the instances of a fleet out of each other's way, and what they share. -/
structure ConflictFree (f : Fleet) : Prop where
  order : f.instances.map (fun i => (i.node, i.role)) =
    f.nodes.flatMap fun n => (roles f.scenario.variant).map (n, ·)
  parts : f.nodes.flatMap f.instancesOn = f.instances
  keys : (f.instances.map (·.key)).Nodup
  endpoints : (f.instances.map (·.endpoint)).Nodup
  ports : ∀ n ∈ f.nodes, ((f.instancesOn n).flatMap fun i =>
    [i.bindings.bootstrapPort, i.bindings.networkPort]).Nodup
  daemonSocket : ∀ i ∈ f.instances, Text.splitLast ':' i.bindings.daemonSocket =
    some ("127.0.0.1", toString i.bindings.networkPort)
  networkSize : ∀ i ∈ f.instances, i.bindings.networkSize = f.topology.networkSize
  room : f.instances.length ≤ f.topology.networkSize
  inputFolder : ∀ i ∈ f.instances, i.bindings.inputFolder = f.scenario.inputFolder
  bootstrapSocket : ∀ i ∈ f.instances, i.bindings.bootstrapSocket = f.topology.bootstrapSocket
  bootstrapPort : ∃ i host, f.instances.head? = some i ∧ i.node.id = 0 ∧ i.role = .primary ∧
    Text.splitLast ':' f.topology.bootstrapSocket = some (host, toString i.bindings.bootstrapPort)
  stakes : ∀ i ∈ f.instances, i.bindings.staking =
    if f.scenario.variant = .unfair ∧ i.node.id = 0 then f.scenario.elevatedStaking
    else f.scenario.staking

/-- Whatever the nodes, the variant and the other settings: a fleet that is resolved is of those nodes
and of that scenario, and no two of its instances get into each other's way. -/
theorem resolve_conflictFree {nodes : List Node} {r : Request} {f : Fleet}
    (resolved : resolve nodes r = .ok f) : ResolvesTo nodes r f ∧ f.ConflictFree := by
  have resolves := resolvesTo_of_resolve resolved
  refine ⟨resolves, ?_⟩
  constructor
  case order =>
    simp [resolves.instances, resolves.kept, List.map_flatMap, ← map_role_layout, Function.comp_def,
      place]
  case parts =>
    rw [List.flatMap_congr fun n hn => resolves.instancesOn_eq hn, resolves.instances, resolves.kept]
  case keys => exact nodup_instance_keys resolved
  case endpoints => exact resolves.nodup_endpoints
  case ports =>
    intro n hn
    rw [resolves.instancesOn_eq hn, List.flatMap_map]
    exact nodup_layout_ports f.scenario.variant
  case daemonSocket =>
    refine resolves.forall_instances.mpr fun n _ slot _ => ?_
    exact Text.splitLast_eq (by simp [place, toString]) (Text.notMem_toString (by decide) _)
  case networkSize => exact resolves.forall_instances.mpr fun _ _ _ _ => rfl
  case room =>
    rw [resolves.length_instances, resolves.kept]
    exact le_of_readNetworkSize resolves.networkSize
  case inputFolder => exact resolves.forall_instances.mpr fun _ _ _ _ => rfl
  case bootstrapSocket => exact resolves.forall_instances.mpr fun _ _ _ _ => rfl
  case bootstrapPort =>
    obtain ⟨i, first, node, primary, port⟩ := resolves.head?_instances
    obtain ⟨host, -, socket⟩ := resolves.bootstrapSocket
    refine ⟨i, host, first, node, primary, ?_⟩
    rw [socket, port]
    exact Text.splitLast_eq (by simp [toString]) (Text.notMem_toString (by decide) _)
  case stakes =>
    refine resolves.forall_instances.mpr fun n _ slot listed => ?_
    have primary := role_of_mem_layout listed
    by_cases unfair : f.scenario.variant = .unfair <;> simp_all [place, stake]

/-- Two addresses that look like sockets, with two instances on each. -/
theorem resolve_conflictFree_doubled :
    let nodes : List Node := [⟨0, "a:27737"⟩, ⟨1, "a"⟩]
    let r : Request := { variant := .text "dual-instance", networkSize := .text " 7" }
    ∃ f, resolve nodes r = .ok f ∧ f.instances.length = 4 ∧ f.ConflictFree := by
  intro nodes r
  obtain ⟨f, resolved⟩ : ∃ f, resolve nodes r = .ok f ∧ f.instances.length = 4 :=
    ⟨_, by rfl, by rfl⟩
  exact ⟨f, resolved.1, resolved.2, (resolve_conflictFree resolved.1).2⟩

end Flotilla.Fleet
