import Flotilla.Fault

namespace Flotilla

inductive Variant
  | standard
  | unfair
  | dualInstance
  deriving DecidableEq, Repr

namespace Variant

def all : List Variant := [standard, unfair, dualInstance]

def name : Variant → String
  | standard => "standard"
  | unfair => "unfair"
  | dualInstance => "dual-instance"

def ofName? (s : String) : Option Variant := all.find? fun v => v.name == s

def ofValue? : Value → Option Variant
  | .text s => ofName? s
  | _ => none

def parse (v : Value) : Except Fault Variant :=
  match ofValue? v with
  | some variant => .ok variant
  | none => .error (.ofMisconfigured (.unknownVariant v (all.map name)))

/-- How many daemons, each with its helper, a node runs. -/
def perNode : Variant → Nat
  | dualInstance => 2
  | _ => 1

theorem ofName?_name (v : Variant) : ofName? v.name = some v := by cases v <;> decide

theorem name_inj {v v' : Variant} (h : v.name = v'.name) : v = v' :=
  Option.some.inj (by rw [← ofName?_name v, h, ofName?_name])

end Variant
end Flotilla
