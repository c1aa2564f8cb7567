/-! White space and trimming. Every script's blanks count, and so do the four information
separators; the zero width space does not. -/
namespace Flotilla.Text

def isBlank (c : Char) : Bool :=
  let n := c.toNat
  (9 ≤ n && n ≤ 13) || (28 ≤ n && n ≤ 32) || n == 0x85 || n == 0xA0 || n == 0x1680 ||
    (0x2000 ≤ n && n ≤ 0x200A) || n == 0x2028 || n == 0x2029 || n == 0x202F || n == 0x205F ||
    n == 0x3000

/-- The blanks that may surround a written integer: the information separators are not among them. -/
def isPadding (c : Char) : Bool := isBlank c && !(28 ≤ c.toNat && c.toNat ≤ 31)

def trimBy (p : Char → Bool) (cs : List Char) : List Char :=
  ((cs.dropWhile p).reverse.dropWhile p).reverse

def trim (s : String) : String := String.ofList (trimBy isBlank s.toList)

def dropTrailing (c : Char) (s : String) : String :=
  String.ofList (s.toList.reverse.dropWhile (· == c)).reverse

/-- Pieces between the occurrences of `sep`; one more piece than there are occurrences. -/
def splitChars (sep : Char) : List Char → List (List Char)
  | [] => [[]]
  | c :: r =>
    if c == sep then [] :: splitChars sep r
    else match splitChars sep r with
      | [] => [[c]]
      | p :: ps => (c :: p) :: ps

def splitOn (sep : Char) (s : String) : List String :=
  (splitChars sep s.toList).map String.ofList

def joinWith (sep : String) : List String → String
  | [] => ""
  | [s] => s
  | s :: r => s ++ sep ++ joinWith sep r

def splitLast (sep : Char) (s : String) : Option (String × String) :=
  let cs := s.toList
  if cs.contains sep then
    let after := (cs.reverse.takeWhile (· != sep)).reverse
    some (String.ofList (cs.take (cs.length - after.length - 1)), String.ofList after)
  else none

def splitFirst (sep : Char) (s : String) : Option (String × String) :=
  let cs := s.toList
  let before := cs.takeWhile (· != sep)
  match cs.drop before.length with
  | [] => none
  | _ :: after => some (String.ofList before, String.ofList after)

theorem splitChars_ne_nil (sep : Char) (cs : List Char) : splitChars sep cs ≠ [] := by
  induction cs with
  | nil => simp [splitChars]
  | cons c r ih =>
    unfold splitChars
    split
    · simp
    · split <;> simp

end Flotilla.Text
