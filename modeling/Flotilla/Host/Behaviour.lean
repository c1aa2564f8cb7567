import Flotilla.Number.Basic

namespace Flotilla.Host

/-- What belongs to a connection: the fan-out's label, the task's key, and the host's address. -/
structure Channel where
  label : Option String
  key : Option String
  host : String
  deriving DecidableEq, Repr

structure Answer where
  returnCode : Option Int
  stdout : Option String
  stderr : Option String
  deriving DecidableEq, Repr

/-- How the process that talks to a single host fares. One that hangs has by then got to some event of
its connection, and does not come to its end. -/
inductive Child
  | ends
  | hangs (reached : Nat)
  | refused
  deriving DecidableEq, Repr

def Child.hung? : Child → Option Nat
  | hangs reached => some reached
  | _ => none

structure Behaviour where
  connectError : Option String := none
  /-- What goes wrong with the files that are put there, in their order. Those after these go well. -/
  putErrors : List (Option String) := []
  runError : Option String := none
  closeError : Option String := none
  joinError : Option String := none
  answer : Answer := ⟨some 0, some "", some ""⟩
  child : Child := .ends
  deriving DecidableEq, Repr

/-- A behaviour, and the channels it is meant for: every field that is given has to agree. -/
structure Rule where
  label : Option (Option String)
  key : Option (Option String)
  host : Option String
  behaviour : Behaviour
  deriving DecidableEq, Repr

def agrees [DecidableEq α] (given : Option α) (a : α) : Bool :=
  match given with
  | some g => g = a
  | none => true

def Rule.applies (r : Rule) (c : Channel) : Bool :=
  agrees r.label c.label && agrees r.key c.key && agrees r.host c.host

abbrev Script := List Rule

/-- The first rule that applies decides; without one, everything succeeds. -/
def Script.behaviour (s : Script) (c : Channel) : Behaviour :=
  match s.find? (·.applies c) with
  | some r => r.behaviour
  | none => {}

end Flotilla.Host
