import Flotilla.Yaml.Folded
import Flotilla.Yaml.Node

namespace Flotilla.Yaml

def indentWidth : Nat := 2

def deeper : Option Nat → Nat
  | none => 0
  | some n => n + indentWidth

/-- Continuation lines of a text are moved in, also at the top. -/
def textIndent (indent : Option Nat) : Nat := indent.getD 0 + indentWidth

def realText (x : Number.Binary64) : List Char :=
  match x with
  | .nan => ".nan".toList
  | .infinite negative => (if negative then "-.inf" else ".inf").toList
  | x =>
    let cs := x.text.toList
    if cs.contains '.' || !cs.contains 'e' then cs
    else cs.takeWhile (· != 'e') ++ ".0".toList ++ cs.dropWhile (· != 'e')

def plainText : Scalar → List Char
  | .null => "null".toList
  | .bool b => (if b then "true" else "false").toList
  | .num (.int i) => (toString i).toList
  | .num (.real x) => realText x
  | .text s => s.toList

def writeScalar (isKey : Bool) (indent : Nat) (s : Scalar) (p : Pen) : Pen :=
  match s with
  | .text t => writeText isKey indent t.toList p
  | s => writePlain (!isKey) indent (plainText s) p

/-- Keys with their tag in front must fit into this many characters to stand on one line. -/
def keyLimit : Nat := 128

def tagWidth : Scalar → Nat
  | .null => "!!null".length
  | .bool _ => "!!bool".length
  | .num (.int _) => "!!int".length
  | .num (.real _) => "!!float".length
  | .text _ => "!!str".length

def isSimpleKey (k : Scalar) : Bool :=
  let cs := plainText k
  !cs.isEmpty && !isMultiline cs && cs.length + tagWidth k < keyLimit

inductive Place
  | alone
  | valueOf
  deriving DecidableEq, Repr

mutual

def writeNode (place : Place) (indent : Option Nat) : Node → Pen → Pen
  | .scalar s, p => writeScalar false (textIndent indent) s p
  | .list [], p => p.spaced ['[', ']']
  | .list (n :: r), p =>
    let own := match place, indent with
      | .valueOf, some n => if p.atStart then n + indentWidth else n
      | _, indent => deeper indent
    writeItems own (n :: r) p
  | .map [], p => p.spaced ['{', '}']
  | .map (f :: r), p => writeFields (deeper indent) (f :: r) p

def writeItems (own : Nat) : List Node → Pen → Pen
  | [], p => p
  | n :: r, p => writeItems own r (writeNode .alone (some own) n ((p.indent own).openMark '-'))

def writeFields (own : Nat) : List (Scalar × Node) → Pen → Pen
  | [], p => p
  | (k, n) :: r, p =>
    let p := p.indent own
    let p := if isSimpleKey k then (writeScalar true (textIndent (some own)) k p).attached [':']
      else ((writeScalar false (textIndent (some own)) k (p.openMark '?')).indent own).openMark ':'
    writeFields own r (writeNode .valueOf (some own) n p)

end

/-- A plain text at the top is closed, as it could go on otherwise. -/
def isOpenEnded : Node → Bool
  | .scalar (.text s) => textStyle false s.toList == .plain
  | .scalar _ => true
  | _ => false

def printNode (n : Node) : String :=
  let p := (writeNode .alone none n .new).indent 0
  let p := if isOpenEnded n then (p.write "...".toList).newline else p
  String.ofList p.text

def print (v : Value) : String := printNode (.ofValue v)

end Flotilla.Yaml
