import Flotilla.Fleet.Roster
import Flotilla.Fleet.Variant

namespace Flotilla

inductive Role
  | primary
  | secondary
  deriving DecidableEq, Repr

def Role.name : Role → String
  | primary => "primary"
  | secondary => "secondary"

structure Topology where
  bootstrapSocket : String
  networkSize : Nat
  deriving DecidableEq, Repr

/-- The input folder is kept as it was given. -/
structure Scenario where
  variant : Variant
  staking : Nat
  elevatedStaking : Nat
  inputFolder : Value
  deriving DecidableEq, Repr

structure Bindings where
  bootstrapSocket : String
  networkSize : Nat
  bootstrapPort : Nat
  networkPort : Nat
  daemonSocket : String
  staking : Nat
  inputFolder : Value
  deriving DecidableEq, Repr

def Bindings.daemonEnvironment (b : Bindings) : List (String × String) :=
  [("BLOCK_CHAT_BOOTSTRAP_PEER_SOCKET", b.bootstrapSocket),
   ("BLOCK_CHAT_BOOTSTRAP_PORT", toString b.bootstrapPort),
   ("BLOCK_CHAT_NETWORK_PORT", toString b.networkPort),
   ("BLOCK_CHAT_NETWORK_SIZE", toString b.networkSize)]

def Bindings.helperEnvironment (b : Bindings) : List (String × Value) :=
  [("DAEMON_SOCKET", .text b.daemonSocket),
   ("FIXED_STAKING", .text (toString b.staking)),
   ("INPUT_FOLDER", b.inputFolder)]

/-- One daemon with its helper on a node, known by the name of its unit. -/
structure Instance where
  name : String
  node : Node
  role : Role
  bindings : Bindings
  deriving DecidableEq, Repr

def Instance.key (i : Instance) : String := s!"{i.node.name}/{i.name}"

def Instance.endpoint (i : Instance) : String := s!"{i.node.address}:{i.bindings.networkPort}"

structure Fleet where
  nodes : List Node
  topology : Topology
  scenario : Scenario
  instances : List Instance
  deriving DecidableEq, Repr

namespace Fleet

def instancesOn (f : Fleet) (n : Node) : List Instance := f.instances.filter (·.node = n)

/-- Every unit that a run of any variant may have left behind. -/
def unitNames : List String := [Defaults.unitName, Defaults.secondUnitName]

def withoutInstancesOn (f : Fleet) (ids : List Int) : Fleet :=
  { f with instances := f.instances.filter fun i => !ids.contains i.node.id }

def withBootstrapSocket (f : Fleet) (socket : String) : Fleet :=
  { f with topology := { f.topology with bootstrapSocket := socket } }

structure Request where
  variant : Value := .text Variant.standard.name
  staking : Value := .num (.int Defaults.staking)
  elevatedStaking : Value := .num (.int Defaults.elevatedStaking)
  inputFolder : Value := .null
  bootstrapHost : Value := .null
  networkSize : Value := .null
  deriving Repr

def readPositive (what : Quantity) (v : Value) : Except Fault Nat :=
  match v.toInt with
  | .ok n => if n ≤ 0 then .error (.ofMisconfigured (.notPositive what n)) else .ok n.toNat
  | .error (.kind _) => .error (.ofMisconfigured (.notInteger what v))
  | .error (.unreadable _) => .error (.ofMisconfigured (.notInteger what v))
  | .error .undefined => .error (.ofMisconfigured (.notInteger what v))
  | .error .infinite => .error (Fault.ofNotInteger .infinite)

def readNetworkSize (v : Value) (instances : Nat) : Except Fault Nat :=
  match v with
  | .null => .ok instances
  | v => do
    let n ← readPositive .networkSize v
    if n < instances then .error (.ofMisconfigured (.networkTooSmall n instances)) else .ok n

def readInputFolder (given : Value) (networkSize : Nat) : Except Fault Value :=
  match given with
  | .null =>
    if Number.fits networkSize then .ok (.text s!"{Defaults.inputsDirectory}/{networkSize}nodes")
    else .error (.value .unwritable)
  | folder => if folder.isTruthy then .ok folder else .error (.misconfigured .emptyInputFolder)

def hasOrdinals (nodes : List Node) : Bool :=
  nodes.map (·.id) == (List.range nodes.length).map Int.ofNat

def checkNodes (nodes : List Node) : Except Fault Unit :=
  if nodes.isEmpty then .error (.misconfigured .noNodes)
  else if !hasOrdinals nodes then .error (.misconfigured .ordinals)
  else if nodes.any (·.address.isEmpty) then .error (.misconfigured .emptyAddress)
  else if !Roster.isDistinct (nodes.map (·.address)) then .error (.misconfigured .sharedAddress)
  else .ok ()

/-- One line of the layout that every node of a variant has. -/
structure Slot where
  name : String
  role : Role
  bootstrapPort : Nat
  networkPort : Nat
  deriving DecidableEq, Repr

def firstSlot : Slot :=
  ⟨Defaults.unitName, .primary, Defaults.bootstrapPort, Defaults.networkPort⟩

def secondSlot : Slot :=
  ⟨Defaults.secondUnitName, .secondary, Defaults.secondBootstrapPort, Defaults.secondNetworkPort⟩

def layout : Variant → List Slot
  | .dualInstance => [firstSlot, secondSlot]
  | _ => [firstSlot]

/-- Only the first node's primary instance of the unfair variant has the elevated stake. -/
def stake (s : Scenario) (n : Node) (slot : Slot) : Nat :=
  if s.variant = .unfair ∧ n.id = 0 ∧ slot.role = .primary then s.elevatedStaking else s.staking

def place (t : Topology) (s : Scenario) (n : Node) (slot : Slot) : Instance :=
  { name := slot.name, node := n, role := slot.role,
    bindings :=
      { bootstrapSocket := t.bootstrapSocket, networkSize := t.networkSize,
        bootstrapPort := slot.bootstrapPort, networkPort := slot.networkPort,
        daemonSocket := s!"127.0.0.1:{slot.networkPort}",
        staking := stake s n slot, inputFolder := s.inputFolder } }

def bootstrapHost (given : Value) (nodes : List Node) : Value :=
  if given.isTruthy then given else .text ((nodes.head?.map (·.address)).getD "")

def resolve (nodes : List Node) (r : Request) : Except Fault Fleet := do
  checkNodes nodes
  let variant ← Variant.parse r.variant
  let staking ← readPositive .staking r.staking
  let elevatedStaking ← readPositive .elevatedStaking r.elevatedStaking
  let networkSize ← readNetworkSize r.networkSize (variant.perNode * nodes.length)
  let inputFolder ← readInputFolder r.inputFolder networkSize
  let host ← (bootstrapHost r.bootstrapHost nodes).write
  let topology := ⟨s!"{host}:{Defaults.bootstrapPort}", networkSize⟩
  let scenario := ⟨variant, staking, elevatedStaking, inputFolder⟩
  return { nodes, topology, scenario,
           instances := nodes.flatMap fun n => (layout variant).map (place topology scenario n) }

end Fleet
end Flotilla
