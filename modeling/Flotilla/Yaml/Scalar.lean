import Flotilla.Text.Literal
import Flotilla.Yaml.Plain

namespace Flotilla.Yaml

inductive Style
  | plain
  | single
  | double
  deriving DecidableEq, Repr

def isBreak (c : Char) : Bool :=
  c == '\n' || c.toNat == 0x85 || c.toNat == 0x2028 || c.toNat == 0x2029

def isGap (c : Char) : Bool := isBreak c || c == ' ' || c == '\t' || c == '\r' || c == '\x00'

/-- Only printable ASCII and line feeds can stand unescaped. -/
def isSpecial (c : Char) : Bool := !(c == '\n' || (32 ≤ c.toNat && c.toNat ≤ 126))

def startIndicators : List Char :=
  ['#', ',', '[', ']', '{', '}', '&', '*', '!', '|', '>', '\'', '"', '%', '@', Char.ofNat 0x60]

def gapNext : List Char → Bool
  | [] => true
  | c :: _ => isGap c

/-- An indicator inside a text: a colon before a gap, or a number sign after one. -/
def hasInnerIndicator : Bool → List Char → Bool
  | _, [] => false
  | afterGap, c :: r =>
    (c == ':' && gapNext r) || (c == '#' && afterGap) || hasInnerIndicator (isGap c) r

def hasIndicator (cs : List Char) : Bool :=
  cs.take 3 == "---".toList || cs.take 3 == "...".toList ||
  match cs with
  | [] => false
  | c :: r =>
    startIndicators.contains c || ((c == '?' || c == ':' || c == '-') && gapNext r) ||
      hasInnerIndicator (isGap c) r

def hasPair (p q : Char → Bool) : List Char → Bool
  | a :: b :: r => (p a && q b) || hasPair p q (b :: r)
  | _ => false

def isSpaceChar (c : Char) : Bool := c == ' '

def isOuter (c : Char) : Bool := c == ' ' || isBreak c

def isMultiline (cs : List Char) : Bool := cs.any isBreak

def allowsPlain (cs : List Char) : Bool :=
  !(cs.head?.any isOuter || cs.getLast?.any isOuter || hasPair isBreak isSpaceChar cs ||
    hasPair isSpaceChar isBreak cs || cs.any isSpecial || isMultiline cs || hasIndicator cs)

def allowsSingle (cs : List Char) : Bool :=
  !(hasPair isBreak isSpaceChar cs || hasPair isSpaceChar isBreak cs || cs.any isSpecial)

/-- The plainest style that reads back as a text. A key must also stay on its line. -/
def textStyle (isKey : Bool) (cs : List Char) : Style :=
  if (kind? cs).isNone && allowsPlain cs && !(isKey && cs.isEmpty) then .plain
  else if allowsSingle cs && !(isKey && isMultiline cs) then .single
  else .double

def escapeLetter? (c : Char) : Option Char :=
  match c.toNat with
  | 0 => some '0'
  | 7 => some 'a'
  | 8 => some 'b'
  | 9 => some 't'
  | 10 => some 'n'
  | 11 => some 'v'
  | 12 => some 'f'
  | 13 => some 'r'
  | 27 => some 'e'
  | 34 => some '"'
  | 92 => some '\\'
  | 0x85 => some 'N'
  | 0xA0 => some '_'
  | 0x2028 => some 'L'
  | 0x2029 => some 'P'
  | _ => none

def upperHex (width n : Nat) : List Char := (Text.hexDigits width n).map Char.toUpper

def escape? (c : Char) : Option (List Char) :=
  match escapeLetter? c with
  | some e => some ['\\', e]
  | none =>
    let n := c.toNat
    if 32 ≤ n && n ≤ 126 then none
    else if n ≤ 0xFF then some ('\\' :: 'x' :: upperHex 2 n)
    else if n ≤ 0xFFFF then some ('\\' :: 'u' :: upperHex 4 n)
    else some ('\\' :: 'U' :: upperHex 8 n)

end Flotilla.Yaml
