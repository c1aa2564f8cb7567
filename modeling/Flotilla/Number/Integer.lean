import Flotilla.Text.Blank
import Flotilla.Text.Digit
import Flotilla.Text.Literal

/-! Integers written by people: blanks around, a sign, digits of any script, and single
underscores between digits. More digits than `digitLimit` are refused before anything else that
may follow them is looked at. Integers of more digits are not written either. -/
namespace Flotilla.Number

inductive Unreadable
  | malformed (text : String)
  | tooLong (digits : Nat)
  deriving DecidableEq, Repr

def digitLimit : Nat := 4300

def Unreadable.message : Unreadable → String
  | .malformed text => "invalid literal for int() with base 10: " ++
      String.ofList ((Text.literal text).toList.take 200)
  | .tooLong n => s!"Exceeds the limit ({digitLimit} digits) for integer string conversion: " ++
      s!"value has {n} digits; use sys.set_int_max_str_digits() to increase the limit"

/-- The digits at the front, single underscores between them left out, and what follows. The flag
tells that a digit has just been read, which an underscore needs and an end needs too. -/
def digitRun : Bool → List Char → Option (List Nat × List Char)
  | seen, [] => if seen then some ([], []) else none
  | seen, c :: r => match Text.digit? c with
    | some d => (digitRun true r).map fun (ds,rest) => (d :: ds, rest)
    | none =>
      if c == '_' then if seen then digitRun false r else none
      else if seen then some ([], c :: r) else none

def unsigned? (cs : List Char) : Option (Except Nat Nat) := do
  let (ds,rest) ← digitRun false cs
  if ds.length > digitLimit then some (.error ds.length)
  else if rest.isEmpty then some (.ok (Text.ofDigits ds)) else none

def signed? : List Char → Option (Except Nat Int)
  | '-' :: r => (unsigned? r).map (·.map fun n => -(n : Int))
  | '+' :: r => (unsigned? r).map (·.map Int.ofNat)
  | cs => (unsigned? cs).map (·.map Int.ofNat)

def read (s : String) : Except Unreadable Int :=
  match signed? (Text.trimBy Text.isPadding s.toList) with
  | none => .error (.malformed s)
  | some (.error n) => .error (.tooLong n)
  | some (.ok i) => .ok i

def fits (i : Int) : Bool := decide ((Nat.toDigits 10 i.natAbs).length ≤ digitLimit)

def unwritable : String :=
  s!"Exceeds the limit ({digitLimit} digits) for integer string conversion; " ++
    "use sys.set_int_max_str_digits() to increase the limit"

end Flotilla.Number
