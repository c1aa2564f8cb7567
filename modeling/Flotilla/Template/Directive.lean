import Flotilla.Template.Fault
import Flotilla.Text.Digit

namespace Flotilla.Template

structure Directive where
  fill : Char
  align : Char
  sign : Option Char
  negativeZero : Bool
  alternate : Bool
  width : Option Nat
  grouping : Option Char
  precision : Option Nat
  code : Char
  deriving DecidableEq, Repr

/-- Indexes and widths are machine words. -/
def greatestIndex : Nat := Nat.pow 2 63 - 1

def greatestPrecision : Nat := Nat.pow 2 31 - 1

def isAlignment (c : Char) : Bool := c == '<' || c == '>' || c == '=' || c == '^'

def takeAlignment : List Char → Option Char × Option Char × List Char
  | a :: b :: r =>
    if isAlignment b then (some a, some b, r)
    else if isAlignment a then (none, some a, b :: r) else (none, none, a :: b :: r)
  | [a] => if isAlignment a then (none, some a, []) else (none, none, [a])
  | [] => (none, none, [])

def takeSign : List Char → Option Char × List Char
  | c :: r => if c == ' ' || c == '+' || c == '-' then (some c, r) else (none, c :: r)
  | [] => (none, [])

def takeFlag (flag : Char) : List Char → Bool × List Char
  | c :: r => if c == flag then (true, r) else (false, c :: r)
  | [] => (false, [])

def takeNumber (cs : List Char) : Except Fault (Option Nat × List Char) :=
  match Text.takeDigits cs with
  | ([], _) => .ok (none, cs)
  | (ds, rest) =>
    let n := Text.ofDigits ds
    if n > greatestIndex then .error (.malformed .indexTooLong) else .ok (some n, rest)

def takeGrouping (cs : List Char) : Except Fault (Option Char × List Char) :=
  let both := Except.error (Fault.malformed .commaAndUnderscore)
  match cs with
  | ',' :: '_' :: _ => both
  | '_' :: ',' :: _ => both
  | ',' :: r => .ok (some ',', r)
  | '_' :: r => .ok (some '_', r)
  | cs => .ok (none, cs)

def takePrecision : List Char → Except Fault (Option Nat × List Char)
  | '.' :: r => do
    let (n,rest) ← takeNumber r
    if n.isNone then .error (.malformed .missingPrecision) else .ok (n, rest)
  | cs => .ok (none, cs)

def groupedCodes : List Char := ['d', 'e', 'f', 'g', 'E', 'G', '%', 'F', '\x00']

/-- Groups are for decimal codes; an underscore also groups the digits of other bases. -/
def checkGrouping (separator code : Char) : Except Fault Unit :=
  if groupedCodes.contains code then .ok ()
  else if separator == '_' && ['b', 'o', 'x', 'X'].contains code then .ok ()
  else .error (.malformed (.grouping separator code))

def Directive.read (kind : String) (code align : Char) (cs : List Char) :
    Except Fault Directive := do
  let (fill,alignment,r) := takeAlignment cs
  let (sign,r) := takeSign r
  let (negativeZero,r) := takeFlag 'z' r
  let (alternate,r) := takeFlag '#' r
  let (zero,r) := if fill.isNone then takeFlag '0' r else (false, r)
  let inner := if zero && align == '>' then '=' else align
  let (width,r) ← takeNumber r
  let (grouping,r) ← takeGrouping r
  let (precision,r) ← takePrecision r
  let code ← match r with
    | [] => pure code
    | [c] => pure c
    | _ => .error (.malformed (.directive (String.ofList cs) kind))
  if let some separator := grouping then checkGrouping separator code
  return ⟨fill.getD (if zero then '0' else ' '), alignment.getD inner, sign, negativeZero,
    alternate, width, grouping, precision, code⟩

end Flotilla.Template
