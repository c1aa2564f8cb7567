import Flotilla.Text.Blank

namespace Flotilla.Shell

def isSafe (c : Char) : Bool :=
  ('a' ≤ c && c ≤ 'z') || ('A' ≤ c && c ≤ 'Z') || ('0' ≤ c && c ≤ '9') ||
    ['_', '@', '%', '+', '=', ':', ',', '.', '/', '-'].contains c

def quotedChar (c : Char) : List Char :=
  if c == '\'' then ['\'', '"', '\'', '"', '\''] else [c]

def quoteChars (cs : List Char) : List Char :=
  if !cs.isEmpty && cs.all isSafe then cs else '\'' :: (cs.flatMap quotedChar ++ ['\''])

def quote (s : String) : String := String.ofList (quoteChars s.toList)

def sortByName (env : List (String × String)) : List (String × String) :=
  env.mergeSort fun a b => decide (a.1 ≤ b.1)

def exportLine (env : List (String × String)) : String :=
  Text.joinWith " && " ((sortByName env).map fun v => s!"export {v.1}={quote v.2}")

end Flotilla.Shell
