namespace Flotilla.Text

def endsFileLine (c : Char) : Bool := c == '\n' || c == '\r'

/-- All characters that end a line on a page: feeds, returns, and separators of lines or more. -/
def endsLine (c : Char) : Bool :=
  let n := c.toNat
  (10 ≤ n && n ≤ 13) || (28 ≤ n && n ≤ 30) || n == 0x85 || n == 0x2028 || n == 0x2029

/-- The lines of a text; `begun` is the line so far, in reverse. What follows the last end is a line
unless it is empty. -/
def linesFrom (ends : Char → Bool) : List Char → List Char → List (List Char)
  | begun, [] => if begun.isEmpty then [] else [begun.reverse]
  | begun, '\r' :: '\n' :: r => begun.reverse :: linesFrom ends [] r
  | begun, c :: r =>
    if ends c then begun.reverse :: linesFrom ends [] r else linesFrom ends (c :: begun) r

def lines (ends : Char → Bool) (s : String) : List String :=
  (linesFrom ends [] s.toList).map String.ofList

example : lines endsLine "a\r\nb\n\nc" = ["a", "b", "", "c"] := by decide +kernel

end Flotilla.Text
