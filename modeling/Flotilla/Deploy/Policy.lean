import Flotilla.Fault

namespace Flotilla.Deploy

inductive Policy
  | carryOn
  | skipFailed
  deriving DecidableEq, Repr

namespace Policy

def all : List Policy := [carryOn, skipFailed]

def code : Policy → Int
  | carryOn => 1
  | skipFailed => 2

def ofValue? (v : Value) : Option Policy := all.find? fun p => v.equalsInt p.code

def parse (v : Value) : Except Fault Policy :=
  match ofValue? v with
  | some p => .ok p
  | none => .error (.ofMisconfigured (.failurePolicy v))

end Policy
end Flotilla.Deploy
