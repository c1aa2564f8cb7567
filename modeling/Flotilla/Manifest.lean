import Flotilla.Defaults
import Flotilla.Fault
import Flotilla.Table
import Flotilla.Yaml.Block

/-! A manifest of containers that stand for the nodes of a fleet: a daemon and a helper a node. The
first daemon is started first and every other waits for it; a helper waits for its own daemon. -/
namespace Flotilla.Manifest

def nodeImage : String := "block_chat_node"
def helperImage : String := "block_chat_helper"

structure Build where
  context : String
  file : String
  deriving DecidableEq, Repr

structure Service where
  name : String
  build : Option Build
  image : String
  pullPolicy : Option String
  expose : List String
  environment : List String
  ports : List String
  dependsOn : List String
  deriving DecidableEq, Repr

/-- Settings of a manifest. Ports are only written out, but for the host port that is counted up. -/
structure Request where
  size : Value
  bootstrapPort : Value := .num (.int Defaults.bootstrapPort)
  networkPort : Value := .num (.int Defaults.networkPort)
  hostPortBase : Value := .num (.int Defaults.hostPortBase)
  deriving Repr

def readSize (v : Value) : Except Fault Nat :=
  match v.toInt with
  | .error why => .error (Fault.ofNotInteger why)
  | .ok n => if n ≤ 0 then .error (.ofMisconfigured (.manifestSize v)) else .ok n.toNat

def hostPort (base : Value) (i : Nat) : Except Fault String :=
  match base.number? with
  | some n => (Value.num (n.addInt i)).write
  | none => .error (.type (.addition base.kindName "int"))

def nodeName (i : Nat) : String := s!"node{i}"

def helperName (i : Nat) : String := s!"helper{i}"

def exposed (port : Value) : String := port.shown ++ "/tcp"

def daemon (r : Request) (size i : Nat) (port : String) : Service :=
  let isFirst := i == 0
  { name := nodeName i
    build := if isFirst then some ⟨".", "Dockerfile.node"⟩ else none
    image := nodeImage
    pullPolicy := if isFirst then some "never" else none
    expose := [exposed r.bootstrapPort, exposed r.networkPort]
    environment := (s!"BLOCK_CHAT_BOOTSTRAP_PEER_SOCKET={nodeName 0}:" ++ r.bootstrapPort.shown) ::
      (if isFirst then [s!"BLOCK_CHAT_NETWORK_SIZE={size}"] else [])
    ports := [port ++ ":" ++ r.networkPort.shown]
    dependsOn := if isFirst then [] else [nodeName 0] }

def helper (r : Request) (size i : Nat) : Service :=
  { name := helperName i
    build := if i == 0 then some ⟨".", "Dockerfile.helper"⟩ else none
    image := helperImage
    pullPolicy := none
    expose := [exposed r.networkPort]
    environment := [s!"BLOCK_CHAT_DAEMON_SOCKET={nodeName i}:" ++ r.networkPort.shown,
      s!"BLOCK_CHAT_NETWORK_SIZE={size}"]
    ports := []
    dependsOn := [nodeName i] }

def services (r : Request) : Except Fault (List Service) := do
  let size ← readSize r.size
  let numbers := [r.bootstrapPort, r.networkPort, .num (.int size)]
  if !numbers.all (·.isWritable) then throw (.value .unwritable)
  let ports ← (List.range size).mapM (hostPort r.hostPortBase)
  return ports.mapIdx (daemon r size) ++ (List.range size).map (helper r size)

def texts (ss : List String) : Value := .list (ss.map .text)

def optionalTexts (name : String) (ss : List String) : List (String × Value) :=
  if ss.isEmpty then [] else [(name, texts ss)]

/-- The fields of a service in the order of the document; absent ones are left out. -/
def Service.fields (s : Service) : List (String × Value) :=
  (match s.build with
    | some b => [("build", .map [("context", .text b.context), ("dockerfile", .text b.file)])]
    | none => []) ++
  [("image", .text s.image)] ++
  (match s.pullPolicy with
    | some policy => [("pull_policy", .text policy)]
    | none => []) ++
  [("expose", texts s.expose), ("environment", texts s.environment)] ++
  optionalTexts "ports" s.ports ++ optionalTexts "depends_on" s.dependsOn

def document (services : List Service) : Value :=
  .map [("services", .map (services.map fun s => (s.name, .map s.fields)))]

def print (services : List Service) : String := Yaml.print (document services)

end Flotilla.Manifest
