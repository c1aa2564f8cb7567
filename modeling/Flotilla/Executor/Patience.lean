import Flotilla.Fault
import Flotilla.Host.Behaviour

/-! How long a process is waited for. A limit is a number of seconds, which is turned into whole
milliseconds; there may only be so many of those. Without a limit the wait lasts until the process has
come to its end. -/
namespace Flotilla.Executor.Patience

def longest : Nat := 2147483647

def countable : Nat := 9223372036854

def secondsFault? (x : Number.Binary64) : Option Fault :=
  if x = .nan then some (.value .undefinedInteger)
  else match x.thousandfold.ceiling? with
    | none => some (.overflow Value.NotInteger.infinite.message)
    | some n =>
      if n > countable then some (.overflow "timestamp too large to convert to C _PyTime_t")
      else if n > longest then some (.overflow "timeout is too large")
      else none

def valueFault? (limit : Value) : Option Fault :=
  match limit.number? with
  | none => some (.type (.addition "float" limit.kindName))
  | some (.real x) => secondsFault? x
  | some (.int i) => match Number.Binary64.ofInt i with
    | .infinite _ => some (.overflow "int too large to convert to float")
    | x => secondsFault? x

def fault? (limit : Option Value) : Option Fault := (limit.bind Value.given?).bind valueFault?

def isEndless (limit : Option Value) : Bool := (limit.bind Value.given?).isNone

/-- How a wait comes out. -/
inductive Wait
  | ended
  | givenUp (why : Fault)
  | endless
  deriving DecidableEq, Repr

def wait (limit : Option Value) (child : Host.Child) : Wait :=
  match fault? limit, child.hung? with
  | some why, _ => .givenUp why
  | none, none => .ended
  | none, some _ => if isEndless limit then .endless else .givenUp (.run .overtime)

/-- How many events of its connection a process gets to that does not come to its end. One that cannot be
waited for is ended as soon as it was started. -/
def cut? (limit : Option Value) (child : Host.Child) : Option Nat :=
  if (fault? limit).isSome then some (child.hung?.getD 0) else child.hung?

end Flotilla.Executor.Patience
