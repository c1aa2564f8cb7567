import Flotilla.Defaults
import Flotilla.Fault
import Flotilla.Template.Basic

namespace Flotilla

structure Node where
  id : Int
  address : String
  deriving DecidableEq, Repr

def Node.name (n : Node) : String := s!"node{n.id}"

structure Roster where
  size : Value := .num (.int Defaults.fleetSize)
  template : Value := .text Defaults.hostTemplate
  hosts : Value := .null
  deriving Repr

namespace Roster

def readSize (v : Value) : Except Fault Int :=
  match v.toInt with
  | .ok n => .ok n
  | .error (.kind _) => .error (.ofMisconfigured (.sizeNotInteger v))
  | .error (.unreadable _) => .error (.ofMisconfigured (.sizeNotInteger v))
  | .error .undefined => .error (.ofMisconfigured (.sizeNotInteger v))
  | .error .infinite => .error (Fault.ofNotInteger .infinite)

section
variable (w : Template.Objects)

def templateAddresses (template : String) : Nat → Nat → Except Fault (List String)
  | _, 0 => .ok []
  | start, count + 1 =>
    match Template.apply w template start with
    | .error f => .error (Fault.ofTemplate f)
    | .ok a => (templateAddresses template (start + 1) count).map (a :: ·)

def ofTemplate (v : Value) (size : Nat) : Except Fault (List String) :=
  match v with
  | .text t => templateAddresses w t 0 size
  | v => .error (.noMemberOf v.kindName "format")

end

/-- The items of a value that can be gone through; a text has its characters as items. -/
def items : Value → Except Fault (List Value)
  | .list vs => .ok vs
  | .text s => .ok (s.toList.map fun c => .text (String.singleton c))
  | .map fs => .ok (fs.map fun f => .text f.1)
  | v => .error (.type (.notIterable v.kindName))

def hostAddress : Value → Except Fault String
  | .text s => .ok (Text.trim s)
  | v => .error (.noMemberOf v.kindName "strip")

def ofHosts (v : Value) (size : Int) : Except Fault (List String) := do
  let addresses ← (← items v).mapM hostAddress
  if (addresses.length : Int) = size then .ok addresses
  else .error (.ofMisconfigured (.hostCount size addresses.length))

def addresses (r : Roster) (w : Template.Objects) (size : Int) : Except Fault (List String) :=
  match r.hosts with
  | .null => ofTemplate w r.template size.toNat
  | hosts => ofHosts hosts size

def number : Nat → List String → List Node
  | _, [] => []
  | start, a :: r => ⟨start, a⟩ :: number (start + 1) r

def isDistinct (xs : List String) : Bool := decide xs.Nodup

def nodes (r : Roster) (w : Template.Objects := .types) : Except Fault (List Node) := do
  let size ← readSize r.size
  if size ≤ 0 then throw (.ofMisconfigured (.sizeNotPositive size))
  let addresses ← r.addresses w size
  if addresses.any (·.isEmpty) then throw (.misconfigured .emptyAddress)
  if !isDistinct addresses then
    throw (.misconfigured (.addressesNotDistinct (Value.list (addresses.map .text)).literal))
  return number 0 addresses

end Roster
end Flotilla
