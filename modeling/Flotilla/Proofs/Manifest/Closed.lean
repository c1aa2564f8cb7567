import Flotilla.Manifest
import Flotilla.Proofs.Number.Written
import Flotilla.Proofs.Precedence
import Flotilla.Proofs.Steps
import Flotilla.Proofs.Text.Pieces
import Mathlib.Data.List.Nodup
import Mathlib.Logic.Relation

/-! A manifest is closed: what a service waits for and what it names in its settings are services of the
same manifest, which come up before it and can be reached at the ports it says. No two services get
into each other's way. There is no manifest with numbers that are too long to be written. -/
namespace Flotilla.Manifest

namespace Service

def assignments (s : Service) : List (String × String) := s.environment.filterMap (Text.splitFirst '=')

def settings (s : Service) (key : String) : List String :=
  (s.assignments.filter (·.1 = key)).map (·.2)

/-- The ports of the host at which a service is published, each with the port behind it. -/
def published (s : Service) : List (Option (String × String)) := s.ports.map (Text.splitFirst ':')

def isDaemon (s : Service) : Bool := s.image = nodeImage

/-- A variable of a service names another one, with a port that the other exposes. -/
def PointsTo (s : Service) (key : String) (d : Service) : Prop :=
  ∃ socket port, s.settings key = [socket] ∧ Text.splitLast ':' socket = some (d.name, port) ∧
    port ++ "/tcp" ∈ d.expose

end Service

def bootstrapKey : String := "BLOCK_CHAT_BOOTSTRAP_PEER_SOCKET"
def sizeKey : String := "BLOCK_CHAT_NETWORK_SIZE"
def daemonKey : String := "BLOCK_CHAT_DAEMON_SOCKET"

def Awaits (ss : List Service) (a b : String) : Prop := ∃ s ∈ ss, s.name = a ∧ b ∈ s.dependsOn

def IsOrdered (ss : List Service) : Prop :=
  ∀ (i : Nat) s, ss[i]? = some s → ∀ name ∈ s.dependsOn, ∃ j < i, ∃ d, ss[j]? = some d ∧ d.name = name

/-- There are pairs of a daemon and its helper. The first daemon waits for none and is told how many there
will be; the others wait for it and look for it. -/
structure IsClosed (ss : List Service) (size : Nat) (port base : Int) : Prop where
  names : ss.map (·.name) = (List.range size).map nodeName ++ (List.range size).map helperName
  distinct : (ss.map (·.name)).Nodup
  daemons : (ss.filter (·.isDaemon)).map (·.name) = (List.range size).map nodeName
  earlier : IsOrdered ss
  acyclic : ∀ name, ¬ Relation.TransGen (Awaits ss) name name
  rooted : ∀ s ∈ ss, Relation.ReflTransGen (Awaits ss) s.name "node0"
  root : ∀ s ∈ ss, s.dependsOn = [] ↔ s.name = "node0"
  published : ss.flatMap (·.published) =
    (List.range size).map fun (i : Nat) => some (toString (base + i), toString port)
  hostPorts : (ss.flatMap fun s => s.published.map (·.map Prod.fst)).Nodup
  announced : ∀ d ∈ ss, d.isDaemon → d.settings sizeKey = if d.name = "node0" then [toString size] else []
  bootstrap : ∀ d ∈ ss, d.isDaemon → ∃ first ∈ ss, first.name = "node0" ∧ d.PointsTo bootstrapKey first
  helped : ∀ i < size, ∃ h ∈ ss, ∃ d ∈ ss, h.name = helperName i ∧ d.name = nodeName i ∧
    h.PointsTo daemonKey d ∧ h.dependsOn = [d.name]
  unshared : ∀ h ∈ ss, ∀ h' ∈ ss, h.isDaemon = false → h'.isDaemon = false → ∀ d,
    h.PointsTo daemonKey d ∧ h'.PointsTo daemonKey d ∨ d.name ∈ h.dependsOn ∧ d.name ∈ h'.dependsOn →
      h = h'

theorem nodeName_inj {i j : Nat} (h : nodeName i = nodeName j) : i = j := by
  refine Text.toString_inj (String.toList_inj.mp ?_)
  simpa [nodeName, toString] using congrArg String.toList h

theorem nodeName_eq_first_iff (i : Nat) : nodeName i = "node0" ↔ i = 0 :=
  ⟨fun h => nodeName_inj (j := 0) h, fun h => congrArg nodeName h⟩

theorem helperName_inj {i j : Nat} (h : helperName i = helperName j) : i = j := by
  refine Text.toString_inj (String.toList_inj.mp ?_)
  simpa [helperName, toString] using congrArg String.toList h

theorem nodeName_ne_helperName (i j : Nat) : nodeName i ≠ helperName j := by
  intro same
  simpa [nodeName, helperName, toString] using congrArg String.toList same

theorem nodup_names (n : Nat) :
    ((List.range n).map nodeName ++ (List.range n).map helperName).Nodup := by
  refine List.nodup_append.mpr ⟨?_, ?_, ?_⟩
  · exact List.nodup_range.map fun _ _ => nodeName_inj
  · exact List.nodup_range.map fun _ _ => helperName_inj
  · intro a ha b hb
    obtain ⟨i, -, rfl⟩ := List.mem_map.mp ha
    obtain ⟨j, -, rfl⟩ := List.mem_map.mp hb
    exact nodeName_ne_helperName i j

theorem not_awaits_itself {ss : List Service} (distinct : (ss.map (·.name)).Nodup)
    (earlier : IsOrdered ss) (name : String) : ¬ Relation.TransGen (Awaits ss) name name :=
  Precedence.not_needs_itself distinct earlier name

def integers (size bootstrap port base : Int) : Request :=
  { size := .num (.int size), bootstrapPort := .num (.int bootstrap)
    networkPort := .num (.int port), hostPortBase := .num (.int base) }

def pairs (size : Nat) (bootstrap port base : Int) : List Service :=
  let r := integers size bootstrap port base
  (List.range size).map (fun (i : Nat) => daemon r size i (toString (base + i))) ++
    (List.range size).map (helper r size)

/-- All numbers that are written for a request for integers are short enough: the ports, the size, and the
host ports of the daemons. -/
def isShort (size : Nat) (bootstrap port base : Int) : Bool :=
  [bootstrap, port, size].all Number.fits && (List.range size).all fun (i : Nat) => Number.fits (base + i)

theorem not_isShort_of_host {size i : Nat} (within : i < size) {bootstrap port base : Int}
    (long : ¬ Number.fits (base + i)) : ¬ isShort size bootstrap port base := by
  intro short
  exact long (List.all_eq_true.mp (Bool.and_eq_true_iff.mp short).2 i (List.mem_range.mpr within))

/-- If the greatest number that can be written is taken for the first daemon, none is left for the second. -/
theorem not_isShort_long (bootstrap port : Int) :
    ¬ isShort 2 bootstrap port Number.greatest :=
  not_isShort_of_host (Nat.lt_succ_self 1) Number.not_fits_after_greatest

theorem services_integers {size : Nat} (positive : 0 < size) (bootstrap port base : Int) :
    services (integers size bootstrap port base) =
      if isShort size bootstrap port base then .ok (pairs size bootstrap port base)
      else .error (.value .unwritable) := by
  have read : readSize (integers size bootstrap port base).size = .ok size := by
    simp [readSize, integers, Value.toInt, Nat.ne_of_gt positive]
  have numbers : [(integers size bootstrap port base).bootstrapPort,
      (integers size bootstrap port base).networkPort, .num (.int size)].all (·.isWritable) =
      [bootstrap, port, (size : Int)].all Number.fits := by
    simp [integers, Value.isWritable]
  have ports : (List.range size).mapM (hostPort (integers size bootstrap port base).hostPortBase) =
      if (List.range size).all fun (i : Nat) => Number.fits (base + i) then
        .ok ((List.range size).map fun (i : Nat) => toString (base + i))
      else .error (.value .unwritable) := mapM_ite ..
  have placed (f : Nat → String → Service) (g : Nat → String) :
      ((List.range size).map g).mapIdx f = (List.range size).map fun i => f i (g i) :=
    List.ext_getElem (by simp) (by simp)
  rw [services, read, isShort]
  change (if !List.all _ _ then _ else _) = _
  rw [numbers]
  cases [bootstrap, port, (size : Int)].all Number.fits with
  | false => rfl
  | true =>
    change _ >>= _ = _
    rw [ports, Bool.true_and]
    split
    · exact congrArg (fun ds => Except.ok (ds ++ _)) (placed _ _)
    · rfl

theorem services_long (bootstrap port : Int) :
    services (integers 2 bootstrap port Number.greatest) = .error (.value .unwritable) := by
  have two : (2 : Int) = (2 : Nat) := rfl
  rw [two, services_integers Nat.two_pos, if_neg (not_isShort_long bootstrap port)]

section
variable (size : Nat) (bootstrap port base : Int)

theorem getElem?_pairs_daemon {i : Nat} (within : i < size) :
    (pairs size bootstrap port base)[i]? =
      some (daemon (integers size bootstrap port base) size i (toString (base + i))) := by
  simp [pairs, List.getElem?_append_left, within]

theorem getElem?_pairs_helper {i : Nat} (beyond : size ≤ i) (within : i < size + size) :
    (pairs size bootstrap port base)[i]? =
      some (helper (integers size bootstrap port base) size (i - size)) := by
  have rest : i - size < size := by omega
  simp [pairs, List.getElem?_append_right, beyond, rest]

end

section
variable {size : Nat} {bootstrap port base : Int}

theorem forall_pairs_iff {P : Service → Prop} : (∀ s ∈ pairs size bootstrap port base, P s) ↔
    (∀ i < size, P (daemon (integers size bootstrap port base) size i (toString (base + (i : Int))))) ∧
      ∀ i < size, P (helper (integers size bootstrap port base) size i) := by
  simp only [pairs, List.forall_mem_append, List.forall_mem_map, List.mem_range]

theorem daemon_mem_pairs {i : Nat} (within : i < size) :
    daemon (integers size bootstrap port base) size i (toString (base + (i : Int))) ∈
      pairs size bootstrap port base :=
  (forall_pairs_iff.mp fun _ member => member).1 i within

theorem helper_mem_pairs {i : Nat} (within : i < size) :
    helper (integers size bootstrap port base) size i ∈ pairs size bootstrap port base :=
  (forall_pairs_iff.mp fun _ member => member).2 i within

@[simp] theorem name_daemon (r : Request) (i : Nat) (host : String) :
    (daemon r size i host).name = nodeName i := rfl

@[simp] theorem name_helper (r : Request) (i : Nat) : (helper r size i).name = helperName i := rfl

@[simp] theorem isDaemon_daemon (r : Request) (i : Nat) (host : String) :
    (daemon r size i host).isDaemon = true := rfl

@[simp] theorem isDaemon_helper (r : Request) (i : Nat) : (helper r size i).isDaemon = false := rfl

theorem dependsOn_daemon_iff {r : Request} (i : Nat) (host : String) :
    (daemon r size i host).dependsOn = [] ↔ (daemon r size i host).name = "node0" := by
  refine Iff.trans ?_ (nodeName_eq_first_iff i).symm
  simp [daemon]

theorem mem_dependsOn_daemon {r : Request} (i : Nat) (host : String) {name : String} :
    name ∈ (daemon r size i host).dependsOn ↔ 0 < i ∧ name = nodeName 0 := by
  rcases i.eq_zero_or_pos with rfl | later
  · simp [daemon]
  · simp [daemon, later, Nat.ne_of_gt later]

theorem splitLast_socket (name : String) (port : Int) :
    Text.splitLast ':' (name ++ ":" ++ toString port) = some (name, toString port) :=
  Text.splitLast_eq (by simp) (Text.notMem_toString_int (by decide) (by decide) port)

theorem published_daemon (i : Nat) (host : Int) :
    (daemon (integers size bootstrap port base) size i (toString host)).published =
      [some (toString host, toString port)] := by
  have read : Text.splitFirst ':' (toString host ++ ":" ++ toString port) =
      some (toString host, toString port) :=
    Text.splitFirst_eq (by simp) (Text.notMem_toString_int (by decide) (by decide) host)
  exact congrArg (fun p => [p]) read

theorem published_helper {r : Request} (i : Nat) : (helper r size i).published = [] := rfl

theorem splitFirst_sized : Text.splitFirst '=' s!"BLOCK_CHAT_NETWORK_SIZE={size}" =
    some (sizeKey, toString size) :=
  Text.splitFirst_eq (by simp [sizeKey, toString]) (by decide)

theorem assignments_daemon (i : Nat) (host : String) :
    (daemon (integers size bootstrap port base) size i host).assignments =
      (bootstrapKey, nodeName 0 ++ ":" ++ toString bootstrap) ::
        if i = 0 then [(sizeKey, toString size)] else [] := by
  have first : Text.splitFirst '='
      (s!"BLOCK_CHAT_BOOTSTRAP_PEER_SOCKET={nodeName 0}:" ++ toString bootstrap) =
      some (bootstrapKey, nodeName 0 ++ ":" ++ toString bootstrap) :=
    Text.splitFirst_eq (by simp [bootstrapKey, toString]) (by decide)
  refine (List.filterMap_cons_some first).trans (congrArg _ ?_)
  by_cases isFirst : i = 0
  · subst isFirst
    exact List.filterMap_cons_some splitFirst_sized
  · simp [isFirst]

theorem assignments_helper (i : Nat) :
    (helper (integers size bootstrap port base) size i).assignments =
      [(daemonKey, nodeName i ++ ":" ++ toString port), (sizeKey, toString size)] := by
  have first : Text.splitFirst '=' (s!"BLOCK_CHAT_DAEMON_SOCKET={nodeName i}:" ++ toString port) =
      some (daemonKey, nodeName i ++ ":" ++ toString port) :=
    Text.splitFirst_eq (by simp [daemonKey, toString]) (by decide)
  refine (List.filterMap_cons_some first).trans (congrArg _ ?_)
  exact List.filterMap_cons_some splitFirst_sized

theorem settings_daemon_bootstrap (i : Nat) (host : String) :
    (daemon (integers size bootstrap port base) size i host).settings bootstrapKey =
      [nodeName 0 ++ ":" ++ toString bootstrap] := by
  rw [Service.settings, assignments_daemon]
  split <;> rfl

theorem settings_daemon_size (i : Nat) (host : String) :
    (daemon (integers size bootstrap port base) size i host).settings sizeKey =
      if i = 0 then [toString size] else [] := by
  rw [Service.settings, assignments_daemon]
  split <;> rfl

theorem settings_helper_daemon (i : Nat) :
    (helper (integers size bootstrap port base) size i).settings daemonKey =
      [nodeName i ++ ":" ++ toString port] := by
  rw [Service.settings, assignments_helper]
  rfl

theorem daemon_pointsTo_first (i : Nat) (host host' : String) :
    (daemon (integers size bootstrap port base) size i host).PointsTo bootstrapKey
      (daemon (integers size bootstrap port base) size 0 host') :=
  ⟨_, _, settings_daemon_bootstrap i host, splitLast_socket (nodeName 0) bootstrap, List.mem_cons_self⟩

theorem helper_pointsTo_daemon (i : Nat) (host : String) :
    (helper (integers size bootstrap port base) size i).PointsTo daemonKey
      (daemon (integers size bootstrap port base) size i host) :=
  ⟨_, _, settings_helper_daemon i, splitLast_socket (nodeName i) port,
    List.mem_cons_of_mem _ List.mem_cons_self⟩

theorem name_of_helper_pointsTo {i : Nat} {d : Service}
    (points : (helper (integers size bootstrap port base) size i).PointsTo daemonKey d) :
    d.name = nodeName i := by
  obtain ⟨socket, _, set, cut, -⟩ := points
  rw [settings_helper_daemon] at set
  obtain rfl := List.singleton_inj.mp set
  rw [splitLast_socket] at cut
  exact (Prod.mk.inj (Option.some.inj cut)).1.symm

theorem isOrdered_pairs : IsOrdered (pairs size bootstrap port base) := by
  intro i s found name waits
  -- The daemons take the places below `size`, and their helpers those from there on.
  rcases Nat.lt_or_ge i size with within | beyond
  · obtain rfl := Option.some.inj
      ((getElem?_pairs_daemon size bootstrap port base within).symm.trans found)
    obtain ⟨later, rfl⟩ := (mem_dependsOn_daemon i _).mp waits
    exact ⟨0, later, _, getElem?_pairs_daemon size bootstrap port base (by omega), rfl⟩
  · have within : i < size + size := by
      simpa [pairs] using (List.getElem?_eq_some_iff.mp found).1
    obtain rfl := Option.some.inj
      ((getElem?_pairs_helper size bootstrap port base beyond within).symm.trans found)
    obtain rfl := List.mem_singleton.mp waits
    exact ⟨i - size, by omega, _, getElem?_pairs_daemon size bootstrap port base (by omega), rfl⟩

theorem published_pairs : (pairs size bootstrap port base).flatMap (·.published) =
    (List.range size).map fun (i : Nat) => some (toString (base + i), toString port) := by
  rw [pairs, List.flatMap_append, List.flatMap_map, List.flatMap_map]
  simp only [published_daemon, published_helper, ← List.map_eq_flatMap]
  exact (congrArg _ (List.flatMap_eq_nil_iff.mpr fun _ _ => rfl)).trans (List.append_nil _)

theorem daemon_awaits_first {i : Nat} (within : i < size) :
    Relation.ReflTransGen (Awaits (pairs size bootstrap port base)) (nodeName i) "node0" := by
  rcases i.eq_zero_or_pos with rfl | later
  · exact .refl
  · refine .single ⟨_, daemon_mem_pairs within, rfl, ?_⟩
    exact (mem_dependsOn_daemon i _).mpr ⟨later, rfl⟩

end

theorem isClosed_pairs (size : Nat) (bootstrap port base : Int) :
    IsClosed (pairs size bootstrap port base) size port base := by
  have names : (pairs size bootstrap port base).map (·.name) =
      (List.range size).map nodeName ++ (List.range size).map helperName := by
    simp [pairs, Function.comp_def]
  have distinct := names ▸ nodup_names size
  constructor
  case names => exact names
  case distinct => exact distinct
  case daemons =>
    simp [pairs, List.filter_map, Function.comp_def]
  case earlier => exact isOrdered_pairs
  case acyclic => exact not_awaits_itself distinct isOrdered_pairs
  case rooted =>
    refine forall_pairs_iff.mpr ⟨fun i within => daemon_awaits_first within, fun i within => ?_⟩
    refine .head ⟨_, helper_mem_pairs within, rfl, ?_⟩ (daemon_awaits_first within)
    exact List.mem_singleton_self _
  case root =>
    refine forall_pairs_iff.mpr ⟨fun i _ => dependsOn_daemon_iff i _, fun i _ => ?_⟩
    exact iff_of_false (List.cons_ne_nil _ _) (nodeName_ne_helperName 0 i).symm
  case published => exact published_pairs
  case hostPorts =>
    rw [← List.map_flatMap, published_pairs, List.map_map]
    refine List.nodup_range.map fun i j same => ?_
    have sum := Text.toString_int_inj (Option.some.inj same)
    omega
  case announced =>
    refine forall_pairs_iff.mpr ⟨fun i _ _ => ?_, fun i _ isDaemon => ?_⟩
    · rw [settings_daemon_size]
      exact if_congr (nodeName_eq_first_iff i).symm rfl rfl
    · exact absurd isDaemon Bool.false_ne_true
  case bootstrap =>
    refine forall_pairs_iff.mpr ⟨fun i within _ => ?_, fun i _ isDaemon => absurd isDaemon Bool.false_ne_true⟩
    exact ⟨_, daemon_mem_pairs (Nat.zero_lt_of_lt within), rfl, daemon_pointsTo_first i _ _⟩
  case helped =>
    intro i within
    exact ⟨_, helper_mem_pairs within, _, daemon_mem_pairs within, rfl, rfl,
      helper_pointsTo_daemon i _, rfl⟩
  case unshared =>
    refine forall_pairs_iff.mpr ⟨fun i _ _ _ helps => absurd helps.symm Bool.false_ne_true, fun i _ => ?_⟩
    refine forall_pairs_iff.mpr ⟨fun j _ _ helps => absurd helps.symm Bool.false_ne_true, ?_⟩
    intro j _ _ _ d shared
    have same : nodeName i = nodeName j := by
      rcases shared with ⟨points, points'⟩ | ⟨waits, waits'⟩
      · exact (name_of_helper_pointsTo points).symm.trans (name_of_helper_pointsTo points')
      · exact (List.mem_singleton.mp waits).symm.trans (List.mem_singleton.mp waits')
    rw [nodeName_inj same]

end Flotilla.Manifest
