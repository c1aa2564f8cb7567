import Flotilla.Yaml.Pen
import Flotilla.Yaml.Scalar

namespace Flotilla.Yaml

inductive Run
  | word (cs : List Char)
  | spaces (n : Nat)
  | breaks (n : Nat)
  deriving DecidableEq, Repr

def runs : List Char → List Run
  | [] => []
  | c :: r => match runs r with
    | .word cs :: rest =>
      if c == ' ' then .spaces 1 :: .word cs :: rest
      else if isBreak c then .breaks 1 :: .word cs :: rest
      else .word (c :: cs) :: rest
    | .spaces n :: rest =>
      if c == ' ' then .spaces (n + 1) :: rest
      else if isBreak c then .breaks 1 :: .spaces n :: rest
      else .word [c] :: .spaces n :: rest
    | .breaks n :: rest =>
      if c == ' ' then .spaces 1 :: .breaks n :: rest
      else if isBreak c then .breaks (n + 1) :: rest
      else .word [c] :: .breaks n :: rest
    | [] => if c == ' ' then [.spaces 1] else if isBreak c then [.breaks 1] else [.word [c]]

def isPastWidth (column : Nat) : Bool := column > Pen.lineWidth

def writePlainRun (fold : Bool) (indent : Nat) (p : Pen) : Run → Pen
  | .word cs => p.write cs
  | .spaces n =>
    if n == 1 && fold && isPastWidth p.column then (p.indent indent).used
    else p.write (List.replicate n ' ')
  | .breaks n => p.write (List.replicate n '\n')

def writePlain (fold : Bool) (indent : Nat) (cs : List Char) (p : Pen) : Pen :=
  (runs cs).foldl (writePlainRun fold indent) (p.spaced [])

def doubleQuotes (cs : List Char) : List Char := cs.flatMap fun c => if c == '\'' then [c, c] else [c]

def newlines : Nat → Pen → Pen
  | 0, p => p
  | n + 1, p => newlines n p.newline

/-- Blanks at either end of the text stay as they are; a row of breaks has one break more. -/
def writeSingleRuns (fold : Bool) (indent : Nat) (isFirst : Bool) : List Run → Pen → Pen
  | [], p => p
  | .word cs :: r, p => writeSingleRuns fold indent false r (p.write (doubleQuotes cs))
  | .spaces n :: r, p =>
    let inner := !isFirst && !r.isEmpty
    if n == 1 && fold && inner && isPastWidth p.column then
      writeSingleRuns fold indent false r (p.indent indent)
    else writeSingleRuns fold indent false r (p.write (List.replicate n ' '))
  | .breaks n :: r, p => writeSingleRuns fold indent false r ((newlines (n + 1) p).indent indent)

def writeSingle (fold : Bool) (indent : Nat) (cs : List Char) (p : Pen) : Pen :=
  (writeSingleRuns fold indent true (runs cs) (p.spaced ['\''])).attached ['\'']

/-- Breaks the line within a text; a blank that follows the break is escaped. -/
def breakLine (indent : Nat) (p : Pen) (next : Option Char) : Pen :=
  let p := ((p.write ['\\']).indent indent).used
  if next == some ' ' then p.write ['\\'] else p

/-- The characters between double quotes. A break may come after an escape, or before a blank, but
not next to the quotes. What has been read since the last of these is pending, in reverse. -/
def writeDoubleChars (fold : Bool) (indent : Nat) : Bool → List Char → List Char → Pen → Pen
  | _, pending, [], p => p.write pending.reverse
  | isFirst, pending, c :: r, p =>
    let inner := fold && !isFirst && !r.isEmpty
    match escape? c with
    | some e =>
      let p := (p.write pending.reverse).write e
      let p := if inner && isPastWidth (p.column - 1) then breakLine indent p r.head? else p
      writeDoubleChars fold indent false [] r p
    | none =>
      if inner && (c == ' ' || pending.isEmpty) && isPastWidth (p.column + pending.length) then
        writeDoubleChars fold indent false [c] r (breakLine indent (p.write pending.reverse) (some c))
      else writeDoubleChars fold indent false (c :: pending) r p

def writeDouble (fold : Bool) (indent : Nat) (cs : List Char) (p : Pen) : Pen :=
  (writeDoubleChars fold indent true [] cs (p.spaced ['"'])).attached ['"']

def writeText (isKey : Bool) (indent : Nat) (cs : List Char) (p : Pen) : Pen :=
  match textStyle isKey cs with
  | .plain => writePlain (!isKey) indent cs p
  | .single => writeSingle (!isKey) indent cs p
  | .double => writeDouble (!isKey) indent cs p

end Flotilla.Yaml
