import Flotilla.Table
import Flotilla.Text.Blank
import Flotilla.Value
import Flotilla.Yaml.Plain
import Flotilla.Yaml.Scalar
import Mathlib.Data.List.DropRight

/-! Documents read from block-style YAML: lists and mappings by how far their lines are moved in, plain
scalars by their kinds. A scalar stands on one line, plainly or between single quotes. What needs more
is refused: doubles and times, double quotes, brackets, comments, tags, and scalars that go on below. -/
namespace Flotilla.Yaml

def digitValue (c : Char) : Nat :=
  if c.isDigit then c.toNat - '0'.toNat else c.toLower.toNat - 'a'.toNat + 10

def ofDigits (base : Nat) (cs : List Char) : Nat := cs.foldl (fun n c => base * n + digitValue c) 0

/-- A number to the base of sixty has decimal places, told apart by colons. -/
def ofSixties (cs : List Char) : Nat :=
  (Text.splitChars ':' cs).foldl (fun n place => 60 * n + ofDigits 10 place) 0

def magnitude : List Char → Nat
  | '0' :: 'b' :: r => ofDigits 2 r
  | '0' :: 'x' :: r => ofDigits 16 r
  | '0' :: r => ofDigits 8 r
  | cs => ofSixties cs

def readInteger (cs : List Char) : Int :=
  match cs.filter (· != '_') with
  | '-' :: r => -(magnitude r : Int)
  | '+' :: r => magnitude r
  | r => magnitude r

def plainValue? (cs : List Char) : Option Value :=
  match kind? cs with
  | none => some (.text (String.ofList cs))
  | some .null => some .null
  | some .truthValue =>
    some (.bool (["yes", "true", "on"].contains (String.ofList (cs.map Char.toLower))))
  | some .integer => some (.num (.int (readInteger cs)))
  | some _ => none

/-- What stands up to the closing quote, and what follows it. A quote that is written twice stands for
one. -/
def takeQuoted : List Char → Option (List Char × List Char)
  | '\'' :: '\'' :: r => (takeQuoted r).map fun (cs,rest) => ('\'' :: cs, rest)
  | '\'' :: r => some ([], r)
  | c :: r => (takeQuoted r).map fun (cs,rest) => (c :: cs, rest)
  | [] => none

def readScalar : List Char → Option Value
  | '\'' :: r => match takeQuoted r with
    | some (cs, []) => some (.text (String.ofList cs))
    | _ => none
  | cs => if hasIndicator cs then none else plainValue? cs

/-- What stands before the first colon with a gap behind it, and what stands behind the colon. -/
def cutAtColon : List Char → Option (List Char × List Char)
  | [] => none
  | c :: r =>
    if c == ':' && gapNext r then some ([], r)
    else (cutAtColon r).map fun (cs,rest) => (c :: cs, rest)

def takeKey : List Char → Option (String × List Char)
  | '\'' :: r => do
    let (k,r) ← takeQuoted r
    let (between,r) ← cutAtColon r
    if between.all isSpaceChar then some (String.ofList k, r) else none
  | cs => do
    let (k,r) ← cutAtColon cs
    match readScalar (k.rdropWhile isSpaceChar) with
    | some (.text k) => some (k, r)
    | _ => none

/-- The colon of a key must be found within this many characters. -/
def keyReach : Nat := 1024

def readKey (cs : List Char) : Option (String × List Char) := do
  let (k,r) ← takeKey cs
  if cs.length ≤ r.length + 1 + keyReach then some (k, r.dropWhile isSpaceChar) else none

structure Line where
  indent : Nat
  content : List Char
  deriving DecidableEq, Repr

namespace Line

def ofChars (cs : List Char) : Line :=
  ⟨(cs.takeWhile isSpaceChar).length, (cs.dropWhile isSpaceChar).rdropWhile isSpaceChar⟩

/-- Empty lines do not count. -/
def ofText (cs : List Char) : List Line :=
  ((Text.splitChars '\n' cs).map ofChars).filter fun l => !l.content.isEmpty

def isItem (l : Line) : Bool :=
  match l.content with
  | '-' :: r => gapNext r
  | _ => false

/-- The lines of an item: what stands behind its mark is a line that is moved in accordingly. -/
def behindMark (l : Line) (below : List Line) : List Line :=
  let r := (l.content.drop 1).dropWhile isSpaceChar
  if r.isEmpty then below else ⟨l.indent + (l.content.length - r.length), r⟩ :: below

end Line

/-- Reads what belongs to a key in the given column: what stands behind its colon, or else the block
below. The items of a list may stand right below the key. -/
def readBehind (block : List Line → Option (Value × List Line)) (own : Nat) (r : List Char)
    (ls : List Line) : Option (Value × List Line) :=
  if !r.isEmpty then (readScalar r).map fun v => (v, ls)
  else if ls.head?.any fun l => own < l.indent || (l.indent == own && l.isItem) then block ls
  else some (.null, ls)

mutual

def readBlock : Nat → List Line → Option (Value × List Line)
  | 0, _ => none
  | _, [] => none
  | fuel + 1, l :: ls =>
    if l.isItem then (readItems fuel l.indent (l :: ls)).map fun (vs,rest) => (.list vs, rest)
    else if (readKey l.content).isSome then
      (readFields fuel l.indent [] (l :: ls)).map fun (fs,rest) => (.map fs, rest)
    else (readScalar l.content).map fun v => (v, ls)

def readItems : Nat → Nat → List Line → Option (List Value × List Line)
  | 0, _, _ => none
  | _, _, [] => some ([], [])
  | fuel + 1, own, l :: ls =>
    if l.indent == own && l.isItem then do
      let ls := l.behindMark ls
      let (v,ls) ← if ls.head?.any (own < ·.indent) then readBlock fuel ls else some (.null, ls)
      let (vs,ls) ← readItems fuel own ls
      some (v :: vs, ls)
    else some ([], l :: ls)

def readFields : Nat → Nat → List (String × Value) → List Line →
    Option (List (String × Value) × List Line)
  | 0, _, _, _ => none
  | _, _, seen, [] => some (seen, [])
  | fuel + 1, own, seen, l :: ls =>
    match if l.indent == own then readKey l.content else none with
    | none => some (seen, l :: ls)
    | some (k, r) => do
      let (v,ls) ← readBehind (readBlock fuel) own r ls
      readFields fuel own (Table.putEntry k v seen) ls

end

def read (s : String) : Option Value :=
  let cs := s.toList
  if cs.any isSpecial then none else
  match readBlock (2 * cs.length + 1) (Line.ofText cs) with
  | some (v, []) => some v
  | _ => none

end Flotilla.Yaml
