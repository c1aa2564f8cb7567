import Flotilla.Fault

/-! A line taken apart into words, as a shell does it. Blanks part words; single quotes keep all that
is between them, and double quotes all but a backslash before a double quote or a backslash. Outside
of quotes a backslash keeps the next character. -/
namespace Flotilla.Shell

inductive Mode
  | bare
  | quoted (quote : Char)
  /-- Right after a backslash, within quotes or without. -/
  | escaped (quote : Option Char)
  deriving DecidableEq, Repr

/-- What has been read: whole words, latest first, and the word that is being read, in reverse. A word
that was begun by a quote is one even if it stays empty. -/
structure Reading where
  mode : Mode := .bare
  isBegun : Bool := false
  word : List Char := []
  words : List String := []
  deriving DecidableEq, Repr

namespace Reading

def add (r : Reading) (c : Char) : Reading := { r with word := c :: r.word }

def endWord (r : Reading) : Reading :=
  if r.isBegun || !r.word.isEmpty then
    { words := String.ofList r.word.reverse :: r.words }
  else r

def isBlank (c : Char) : Bool := c == ' ' || c == '\t' || c == '\r' || c == '\n'

def step (r : Reading) (c : Char) : Reading :=
  match r.mode with
  | .bare =>
    if isBlank c then r.endWord
    else if c == '\\' then { r with mode := .escaped none }
    else if c == '\'' || c == '"' then { r with mode := .quoted c, isBegun := true }
    else r.add c
  | .quoted q =>
    if c == q then { r with mode := .bare }
    else if c == '\\' && q == '"' then { r with mode := .escaped (some q) }
    else r.add c
  | .escaped none => { r.add c with mode := .bare }
  | .escaped (some q) =>
    let r := if c == q || c == '\\' then r else r.add '\\'
    { r.add c with mode := .quoted q }

end Reading

def words (line : String) : Except ValueFault (List String) :=
  let r := line.toList.foldl Reading.step {}
  match r.mode with
  | .bare => .ok r.endWord.words.reverse
  | .quoted _ => .error .openQuote
  | .escaped _ => .error .openEscape

end Flotilla.Shell
