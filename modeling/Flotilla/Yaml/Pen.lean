/-! A pen that knows its column, whether the last thing written was a gap, and whether nothing but
indicators has been written on the line so far. -/
namespace Flotilla.Yaml

structure Pen where
  written : List Char
  column : Nat
  afterGap : Bool
  atStart : Bool
  deriving DecidableEq, Repr

namespace Pen

def lineWidth : Nat := 80

def new : Pen := ⟨[], 0, true, true⟩

def text (p : Pen) : List Char := p.written.reverse

def write (p : Pen) (cs : List Char) : Pen :=
  { p with written := cs.reverse ++ p.written, column := p.column + cs.length }

def newline (p : Pen) : Pen := ⟨'\n' :: p.written, 0, true, true⟩

/-- Moves to column `n`, on a new line unless the present one is still free up to there. -/
def indent (p : Pen) (n : Nat) : Pen :=
  let p := if !p.atStart || p.column > n || (p.column == n && !p.afterGap) then p.newline else p
  if p.column < n then { p.write (List.replicate (n - p.column) ' ') with afterGap := true } else p

def used (p : Pen) : Pen := { p with afterGap := false, atStart := false }

/-- An indicator after which a nested item may start on the same line. -/
def openMark (p : Pen) (c : Char) : Pen :=
  let p := if p.afterGap then p.write [c] else p.write [' ', c]
  { p with afterGap := false }

def spaced (p : Pen) (cs : List Char) : Pen :=
  (if p.afterGap then p.write cs else p.write (' ' :: cs)).used

def attached (p : Pen) (cs : List Char) : Pen := (p.write cs).used

end Pen
end Flotilla.Yaml
