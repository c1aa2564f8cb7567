import Flotilla.Template.Shown

/-! Templates with fields in braces, filled in with one number. A doubled brace stands for itself.
Pieces are filled in from left to right, so the first fault met there is the one reported. -/
namespace Flotilla.Template

inductive Piece
  | text (c : Char)
  | field (name : List Char) (conversion : Option Char) (directive : List Char)
  deriving DecidableEq, Repr

/-- The pieces of a template up to its end or its first fault. -/
structure Pieces where
  pieces : List Piece
  fault : Option Malformed
  deriving DecidableEq, Repr

def Pieces.cons (p : Piece) (ps : Pieces) : Pieces := { ps with pieces := p :: ps.pieces }

def Pieces.stop (why : Malformed) : Pieces := ⟨[], some why⟩

/-- Where the reader stands. What has been read of the current part is kept in reverse. -/
inductive Place
  | outside
  | name (read : List Char) (inItem : Bool)
  | conversion (name : List Char)
  | converted (name : List Char) (c : Char)
  | directive (name : List Char) (c : Option Char) (read : List Char) (depth : Nat)

def chosen (c : Char) : Option Char := if c == '\x00' then none else some c

def Pieces.readFrom : Place → List Char → Pieces
  | .outside, [] => ⟨[], none⟩
  | .outside, '{' :: '{' :: r => (Pieces.readFrom .outside r).cons (.text '{')
  | .outside, '}' :: '}' :: r => (Pieces.readFrom .outside r).cons (.text '}')
  | .outside, ['{'] => .stop .loneOpen
  | .outside, '{' :: r => Pieces.readFrom (.name [] false) r
  | .outside, '}' :: _ => .stop .loneClose
  | .outside, c :: r => (Pieces.readFrom .outside r).cons (.text c)
  | .name _ _, [] => .stop .unclosedField
  | .name read true, c :: r => Pieces.readFrom (.name (c :: read) (c != ']')) r
  | .name read false, c :: r =>
    if c == '{' then .stop .openInName
    else if c == '}' then (Pieces.readFrom .outside r).cons (.field read.reverse none [])
    else if c == ':' then Pieces.readFrom (.directive read.reverse none [] 0) r
    else if c == '!' then Pieces.readFrom (.conversion read.reverse) r
    else Pieces.readFrom (.name (c :: read) (c == '[')) r
  | .conversion _, [] => .stop .missingConversion
  | .conversion name, c :: r => Pieces.readFrom (.converted name c) r
  | .converted _ _, [] => .stop .unclosedSpec
  | .converted name k, c :: r =>
    if c == '}' then (Pieces.readFrom .outside r).cons (.field name (chosen k) [])
    else if c == ':' then Pieces.readFrom (.directive name (chosen k) [] 0) r
    else .stop .afterConversion
  | .directive _ _ _ _, [] => .stop .unclosedSpec
  | .directive name k read depth, c :: r =>
    match c, depth with
    | '}', 0 => (Pieces.readFrom .outside r).cons (.field name k read.reverse)
    | '}', d + 1 => Pieces.readFrom (.directive name k (c :: read) d) r
    | '{', d => Pieces.readFrom (.directive name k (c :: read) (d + 1)) r
    | _, d => Pieces.readFrom (.directive name k (c :: read) d) r

def Pieces.read (cs : List Char) : Pieces := Pieces.readFrom .outside cs

/-- Fields are numbered by the template or by their order, and not both in one template. -/
inductive Numbering
  | undecided
  | automatic (next : Nat)
  | manual
  deriving DecidableEq, Repr

/-- What a field stands for. Objects that are neither numbers nor texts go by a name. -/
inductive Subject
  | integer (n : Nat)
  | text (cs : List Char)
  | object (name : String)
  deriving DecidableEq, Repr

/-- What is put in brackets after a subject. -/
inductive Key
  | position (n : Nat)
  | name (cs : List Char)
  deriving DecidableEq, Repr

/-- What there is in an interpreter besides numbers and texts. -/
structure Objects where
  member : Subject → String → Except Fault Subject
  item : String → Key → Except Fault Subject
  convert : String → Char → Except Fault (List Char)
  under : String → List Char → Except Fault (List Char)

abbrev Filling := StateT Numbering (Except Fault)

def refuse (why : Malformed) : Filling α := throw (.malformed why)

def index? (cs : List Char) : Except Fault (Option Nat) :=
  match Text.takeDigits cs with
  | (ds, []) =>
    if ds.isEmpty then .ok none
    else if Text.ofDigits ds > greatestIndex then .error (.malformed .indexTooLong)
    else .ok (some (Text.ofDigits ds))
  | (ds, _) =>
    if Text.ofDigits ds > greatestIndex then .error (.malformed .indexTooLong) else .ok none

def numberField : Option Nat → Filling Nat
  | none => do match ← get with
    | .undecided => set (Numbering.automatic 1); return 0
    | .automatic next => set (Numbering.automatic (next + 1)); return next
    | .manual => refuse .manualToAutomatic
  | some n => do match ← get with
    | .undecided => set Numbering.manual; return n
    | .automatic _ => refuse .automaticToManual
    | .manual => return n

def Subject.owner : Subject → String
  | .integer _ => "'int' object"
  | .text _ => "'str' object"
  | .object name => s!"type object '{name}'"

namespace Objects

/-- The types of numbers, of texts and of types, and what tells them apart. Nothing else is there. -/
def types : Objects :=
  let shown (name : String) := s!"<class '{name}'>".toList
  { member := fun s name => match s, name with
      | .integer n, "real" => .ok (.integer n)
      | .integer n, "numerator" => .ok (.integer n)
      | .integer _, "imag" => .ok (.integer 0)
      | .integer _, "denominator" => .ok (.integer 1)
      | .integer _, "__class__" => .ok (.object integerKind)
      | .text _, "__class__" => .ok (.object textKind)
      | .object _, "__class__" => .ok (.object "type")
      | .object k, "__name__" => .ok (.text k.toList)
      | .object k, "__qualname__" => .ok (.text k.toList)
      | .object _, "__module__" => .ok (.text "builtins".toList)
      | s, name => .error (.noMember s.owner name)
    item := fun k _ => .error (.noItems s!"type '{k}'")
    convert := fun k _ => .ok (shown k)
    under := fun k directive =>
      if directive.isEmpty then .ok (shown k) else .error (.noDirectives "type") }

variable (w : Objects)

def itemOf (s : Subject) (k : Key) : Except Fault Subject :=
  match s, k with
  | .text cs, .position n => match cs[n]? with
    | some c => .ok (.text [c])
    | none => .error .itemIndex
  | .text _, .name _ => .error .itemByName
  | .integer _, _ => .error (.noItems "'int' object")
  | .object name, k => w.item name k

def converted (c : Char) (cs : List Char) : List Char :=
  let literal := (Text.literal (String.ofList cs)).toList
  match c with
  | 's' => cs
  | 'a' => literal.flatMap fun c => if c.toNat < 128 then [c] else Text.escapeCode c.toNat
  | _ => literal

def convertTo : Option Char → Subject → Except Fault Subject
  | none, s => .ok s
  | some c, s =>
    if ['s', 'r', 'a'].contains c then
      match s with
      | .integer n => .ok (.text (Nat.toDigits 10 n))
      | .text cs => .ok (.text (converted c cs))
      | .object name => (w.convert name c).map .text
    else .error (.malformed (.conversion c))

def format (directive : List Char) : Subject → Except Fault (List Char)
  | .integer n => showInteger directive n
  | .text cs => showText directive cs
  | .object name => w.under name directive

end Objects

def isAccess (c : Char) : Bool := c == '.' || c == '['

section
variable (w : Objects)

/-- Follows the member and item accesses after a field's name. Every access uses up a character,
so as many steps as there are characters are enough. -/
def follow : Nat → List Char → Subject → Except Fault Subject
  | 0, _, s => .ok s
  | _, [], s => .ok s
  | fuel + 1, '.' :: r, s => do
    let name := r.takeWhile fun c => !isAccess c
    if name.isEmpty then .error (.malformed .emptyMember)
    else follow fuel (r.drop name.length) (← w.member s (String.ofList name))
  | fuel + 1, '[' :: r, s => do
    let name := r.takeWhile (· != ']')
    match r.drop name.length with
    | [] => .error (.malformed .unclosedItem)
    | _ :: rest =>
      let n ← index? name
      if name.isEmpty then .error (.malformed .emptyMember)
      else follow fuel rest (← w.itemOf s ((n.map Key.position).getD (.name name)))
  | _ + 1, _ :: _, _ => .error (.malformed .afterItem)

def lookUp (value : Nat) (name : List Char) : Filling Subject := do
  let first := name.takeWhile fun c => !isAccess c
  let rest := name.drop first.length
  let given ← index? first
  if !first.isEmpty && given.isNone then throw (.argumentName (String.ofList first))
  let n ← numberField given
  if n != 0 then throw (.argumentIndex n)
  follow w rest.length rest (.integer value)

def fill (value : Nat) : Nat → List Char → Filling (List Char)
  | 0, _ => refuse .tooNested
  | depth + 1, cs => do
    let read := Pieces.read cs
    let mut out := []
    for p in read.pieces do
      match p with
      | .text c => out := out ++ [c]
      | .field name conversion directive =>
        let s ← w.convertTo conversion (← lookUp w value name)
        let inner ← if directive.contains '{' then fill value depth directive else pure directive
        out := out ++ (← w.format inner s)
    match read.fault with
    | some why => refuse why
    | none => return out

/-- Directives may hold fields, but the directives of those may not. -/
def nesting : Nat := 2

def apply (template : String) (value : Nat) : Except Fault String :=
  (fill w value nesting template.toList).run' .undecided |>.map String.ofList

end

end Flotilla.Template
