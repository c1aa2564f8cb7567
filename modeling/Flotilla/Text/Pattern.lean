/-! Regular expressions over character ranges, matched by derivatives: a pattern matches a text if,
with every character taken off in turn, what is left matches the empty text. -/
namespace Flotilla.Text

inductive Pattern
  | never
  | nothing
  | range (first last : Char)
  | seq (p q : Pattern)
  | alt (p q : Pattern)
  | many (p : Pattern)
  deriving DecidableEq, Repr

namespace Pattern

def nullable : Pattern → Bool
  | never => false
  | nothing => true
  | range _ _ => false
  | seq p q => p.nullable && q.nullable
  | alt p q => p.nullable || q.nullable
  | many _ => true

/-- Sequence and alternative that drop the parts which can make no difference. -/
def andThen : Pattern → Pattern → Pattern
  | never, _ => never
  | _, never => never
  | nothing, q => q
  | p, q => seq p q

def orElse : Pattern → Pattern → Pattern
  | never, q => q
  | p, never => p
  | p, q => if p = q then p else alt p q

def derive (c : Char) : Pattern → Pattern
  | never => never
  | nothing => never
  | range a b => if a ≤ c && c ≤ b then nothing else never
  | seq p q =>
    let first := (p.derive c).andThen q
    if p.nullable then first.orElse (q.derive c) else first
  | alt p q => (p.derive c).orElse (q.derive c)
  | many p => (p.derive c).andThen (many p)

def matchesAll (p : Pattern) (cs : List Char) : Bool := (cs.foldl (fun p c => p.derive c) p).nullable

def char (c : Char) : Pattern := range c c

def word (s : String) : Pattern := s.toList.foldr (fun c p => (char c).andThen p) nothing

def oneOf : List Pattern → Pattern
  | [] => never
  | [p] => p
  | p :: r => alt p (oneOf r)

def row : List Pattern → Pattern
  | [] => nothing
  | [p] => p
  | p :: r => seq p (row r)

def words (ss : List String) : Pattern := oneOf (ss.map word)

def chars (s : String) : Pattern := oneOf (s.toList.map char)

def optional (p : Pattern) : Pattern := alt nothing p

def some (p : Pattern) : Pattern := seq p (many p)

def digit : Pattern := range '0' '9'

end Pattern
end Flotilla.Text
