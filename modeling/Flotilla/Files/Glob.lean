import Flotilla.Files.Disk

/-! Paths by pattern: a star stands for any characters, a question mark for one, and brackets for
one of a class. A class that is not closed stands for its bracket. -/
namespace Flotilla.Files

/-- Either one character or a range of them. -/
inductive Span
  | one (c : Char)
  | range (first last : Char)
  deriving DecidableEq, Repr

def Span.has (c : Char) : Span → Bool
  | one d => c == d
  | range a b => a ≤ c && c ≤ b

inductive Wildcard
  | char (c : Char)
  | any
  | many
  | oneOf (negated : Bool) (spans : List Span)
  deriving DecidableEq, Repr

/-- A class cut at the hyphens that make ranges. The first `skip` characters hold none, and after a
range the next two characters hold none. A hyphen at the end makes no range. -/
def pieces (skip : Nat) (cs : List Char) : List (List Char) :=
  let before := cs.take skip ++ (cs.drop skip).takeWhile (· != '-')
  match _h : cs.drop before.length with
  | [] => [cs]
  | [_] => [before ++ ['-']]
  | _ :: c :: r => before :: pieces 2 (c :: r)
termination_by cs.length
decreasing_by
  have := congrArg List.length _h
  simp at this ⊢
  omega

/-- Leaves out the ranges that are empty, latest first, each with both of its ends. -/
def joinEmpty : List (List Char) → List (List Char)
  | [] => []
  | p :: r => match joinEmpty r with
    | [] => [p]
    | q :: r =>
      if p.getLast?.any fun a => q.head?.any fun b => b < a then (p.dropLast ++ q.drop 1) :: r
      else p :: q :: r

/-- A class as a row of characters; `none` is a hyphen that makes a range. -/
def classRow (cs : List Char) : List (Option Char) :=
  let skip := if cs.head? == some '!' then 2 else 1
  List.intercalate [none] ((joinEmpty (pieces skip cs)).map fun p => p.map some)

/-- The spans of a row. A hyphen with nothing before it is a character like any other. -/
def spans : List (Option Char) → List Span
  | a :: none :: b :: r => .range (a.getD '-') (b.getD '-') :: spans r
  | a :: r => .one (a.getD '-') :: spans r
  | [] => []

/-- The class between two brackets. Whether it is negated is seen once its empty ranges are gone. -/
def classOf (cs : List Char) : Wildcard :=
  match classRow cs with
  | some '!' :: r => .oneOf true (spans r)
  | row => .oneOf false (spans row)

/-- Splits a class off its closing bracket, which does not count in the first place. -/
def takeClass (cs : List Char) : Option (List Char × List Char) :=
  let start := match cs with
    | '!' :: ']' :: _ => 2
    | '!' :: _ => 1
    | ']' :: _ => 1
    | _ => 0
  let inner := cs.take start ++ (cs.drop start).takeWhile (· != ']')
  match cs.drop inner.length with
  | [] => none
  | _ :: rest => some (inner, rest)

/-- Reads a pattern. Every step uses up a character, so the length is fuel enough. -/
def wildcardsFrom : Nat → List Char → List Wildcard
  | 0, _ => []
  | _, [] => []
  | fuel + 1, '*' :: r => .many :: wildcardsFrom fuel r
  | fuel + 1, '?' :: r => .any :: wildcardsFrom fuel r
  | fuel + 1, '[' :: r => match takeClass r with
    | some (inner, rest) => classOf inner :: wildcardsFrom fuel rest
    | none => .char '[' :: wildcardsFrom fuel r
  | fuel + 1, c :: r => .char c :: wildcardsFrom fuel r

def wildcards (cs : List Char) : List Wildcard := wildcardsFrom cs.length cs

def Wildcard.hasOne (c : Char) : Wildcard → Bool
  | char d => c == d
  | any => true
  | many => false
  | oneOf negated spans => (spans.any (·.has c)) != negated

/-- Whether a text matches, by the set of what is left of the pattern after each character. -/
def matchesWildcards : List Wildcard → List Char → Bool
  | [], [] => true
  | [], _ :: _ => false
  | .many :: ws, [] => matchesWildcards ws []
  | .many :: ws, c :: r => matchesWildcards ws (c :: r) || matchesWildcards (.many :: ws) r
  | _ :: _, [] => false
  | w :: ws, c :: r => w.hasOne c && matchesWildcards ws r
termination_by ws cs => ws.length + cs.length

def hasWildcard (s : String) : Bool := s.toList.any fun c => c == '*' || c == '?' || c == '['

def isHidden (s : String) : Bool := s.startsWith "."

/-- The names in a directory that match. Hidden names need a hidden pattern. -/
def namesLike (d : Disk) (directory pattern : String) (onlyDirectories : Bool) :
    Except FileFault (List String) :=
  let directory := if directory.isEmpty then "." else directory
  if Disk.hasNul directory then .error .nul else
  let entries := match d.entry? directory with
    | some e => e.entries
    | none => []
  let names := (entries.filter fun e => !onlyDirectories || e.2.isDirectory).map (·.1)
  .ok (names.filter fun n =>
    (isHidden pattern || !isHidden n) && matchesWildcards (wildcards pattern.toList) n.toList)

/-- The paths that match a pattern. Each level takes a name off it, so its length is fuel enough. -/
def globFrom (d : Disk) : Nat → Bool → String → Except FileFault (List String)
  | 0, _, _ => .ok []
  | fuel + 1, onlyDirectories, pattern =>
    let directory := directoryName pattern
    let name := baseName pattern
    if !hasWildcard pattern then
      let isThere := if name.isEmpty then d.isDirectory directory else d.isPresent pattern
      .ok (if isThere then [pattern] else [])
    else do
      let directories ←
        if directory.isEmpty then pure [""]
        else if directory != pattern && hasWildcard directory then globFrom d fuel true directory
        else pure [directory]
      let found ← directories.mapM fun directory => do
        let names ←
          if hasWildcard name then namesLike d directory name onlyDirectories
          else if name.isEmpty then pure (if d.isDirectory directory then [name] else [])
          else pure (if d.isPresent (join directory name) then [name] else [])
        return names.map (join directory)
      return found.flatten

def glob (d : Disk) (pattern : String) : Except FileFault (List String) :=
  globFrom d (pattern.length + 1) false pattern

end Flotilla.Files
