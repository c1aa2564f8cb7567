import Flotilla.Text.Blank
import Flotilla.Text.Digit

/-! Command lines of flags and words. A long flag may be cut short as long as only one flag begins
so; short flags may be run together, and may have their argument joined on. All that follows a bare
double hyphen is words, and a double hyphen given to a flag is as good as nothing. There is room for one
word; whatever else is left over is extra. -/
namespace Flotilla.CommandLine

inductive Arity
  | none
  | one
  | atMostOne
  deriving DecidableEq, Repr

/-- The flags there are, in order, with their names and what they take. -/
structure Grammar (α : Type) where
  flags : List α
  names : α → List String
  arity : α → Arity

/-- A flag as it stands in an argument. No flag of that name may exist; `isJoined` tells that what
comes with it comes after an equals sign. -/
structure Mention (α : Type) where
  flag : Option α
  name : String
  isJoined : Bool
  given : Option String

inductive Item (α : Type)
  | word (s : String)
  | separator
  | flag (s : String) (m : Mention α)

structure Ambiguity where
  argument : String
  candidates : List String
  deriving DecidableEq, Repr

inductive Misuse
  | expectedOne
  | ignored (given : String)
  deriving DecidableEq, Repr

/-- A flag or the word, with the arguments taken for it. -/
inductive Use (α : Type)
  | flag (f : α) (arguments : List String)
  | word (arguments : List String)

/-- The uses up to the end or the first misuse, and what was left over. -/
structure Parsed (α : Type) where
  uses : List (Use α)
  extras : List String
  misuse : Option (α × Misuse)

namespace Item

def text : Item α → String
  | word s => s
  | separator => "--"
  | flag s _ => s

def isWord : Item α → Bool
  | word _ => true
  | _ => false

def isSeparator : Item α → Bool
  | separator => true
  | _ => false

def isFlag : Item α → Bool
  | flag _ _ => true
  | _ => false

end Item

namespace Grammar
variable {α : Type} (g : Grammar α)

def named : List (String × α) := g.flags.flatMap fun f => (g.names f).map fun n => (n, f)

def flag? (name : String) : Option α := g.named.lookup name

/-- The end, or a line's end before it. -/
def isEnd (cs : List Char) : Bool := cs.isEmpty || cs == ['\n']

/-- Digits with an optional fraction after a hyphen: an argument, as no flag looks like that. -/
def isNegativeNumber (s : String) : Bool :=
  match s.toList with
  | '-' :: r =>
    let (whole,rest) := Text.takeDigits r
    match rest with
    | '.' :: f =>
      let (fraction,rest) := Text.takeDigits f
      !fraction.isEmpty && isEnd rest
    | _ => !whole.isEmpty && isEnd rest
  | _ => false

def candidates (s : String) : List (Mention α) :=
  if s.startsWith "--" then
    let (start,given) := match Text.splitFirst '=' s with
      | some (start, given) => (start, some given)
      | none => (s, none)
    (g.named.filter fun n => n.1.startsWith start).map fun n => ⟨n.2, n.1, given.isSome, given⟩
  else
    let short := String.ofList (s.toList.take 2)
    let rest := String.ofList (s.toList.drop 2)
    g.named.filterMap fun n =>
      if n.1 == short then some ⟨n.2, n.1, false, some rest⟩
      else if n.1.startsWith s then some ⟨n.2, n.1, false, none⟩
      else none

def mention? (s : String) : Except Ambiguity (Option (Mention α)) :=
  if !s.startsWith "-" then .ok none
  else match g.flag? s with
    | some f => .ok (some ⟨f, s, false, none⟩)
    | none =>
      if s == "-" then .ok none else
      let joined := (Text.splitFirst '=' s).bind fun (name,given) =>
        (g.flag? name).map fun f => (⟨some f, name, true, some given⟩ : Mention α)
      match joined, g.candidates s with
      | some m, _ => .ok (some m)
      | none, [m] => .ok (some m)
      | none, [] =>
        if isNegativeNumber s || s.toList.contains ' ' then .ok none
        else .ok (some ⟨none, s, false, none⟩)
      | none, ms => .error ⟨s, ms.map (·.name)⟩

def items : List String → Except Ambiguity (List (Item α))
  | [] => .ok []
  | s :: r =>
    if s == "--" then .ok (.separator :: r.map .word)
    else do
      let item := match ← g.mention? s with
        | some m => Item.flag s m
        | none => .word s
      return item :: (← items r)

/-- What a cluster of short flags comes to: its uses, how many of the items after it they took, and
what was left over, or the misuse in it. -/
abbrev Cluster (α : Type) := Except (α × Misuse) (List (Use α) × Nat × List String)

/-- A flag with the arguments given to it; a double hyphen among them does not count. -/
def use (f : α) (given : List String) : Use α := .flag f (given.erase "--")

def takeFollowing (f : α) (following : List (Item α)) : Cluster α :=
  let next := match following with
    | .word s :: _ => some s
    | _ => none
  match g.arity f, next with
  | .none, _ => .ok ([.flag f []], 0, [])
  | .one, none => .error (f, .expectedOne)
  | .one, some s => .ok ([use f [s]], 1, [])
  | .atMostOne, none => .ok ([.flag f []], 0, [])
  | .atMostOne, some s => .ok ([use f [s]], 1, [])

def isShort (name : String) : Bool := !name.startsWith "--"

/-- Takes a flag with characters that came joined to it. If it takes no argument, they are further
short flags. -/
def takeJoined (following : List (Item α)) : α → String → Bool → List Char → Cluster α
  | f, name, isJoined, cs =>
    if g.arity f ≠ .none then .ok ([use f [String.ofList cs]], 0, [])
    else match cs with
      | [] => .error (f, .ignored "")
      | c :: r =>
        if !isShort name || isJoined || c == '-' then .error (f, .ignored (String.ofList (c :: r)))
        else
          let next := String.ofList ['-', c]
          match g.flag? next with
          | none => .ok ([.flag f []], 0, [String.ofList ('-' :: c :: r)])
          | some f' =>
            let rest := match r with
              | [] => g.takeFollowing f' following
              | '=' :: r' => takeJoined following f' next true r'
              | d :: r' => takeJoined following f' next false (d :: r')
            rest.map fun (uses,count,extras) => (.flag f [] :: uses, count, extras)
termination_by _ _ _ cs => cs.length

def wordSpan (items : List (Item α)) : Nat :=
  let before := (items.takeWhile Item.isSeparator).length
  let rest := items.drop before
  let word := (rest.head?.any Item.isWord).toNat
  before + word + ((rest.drop word).takeWhile Item.isSeparator).length

def wordArguments (items : List (Item α)) : List String := (items.map Item.text).erase "--"

def Parsed.addUses (us : List (Use α)) (p : Parsed α) : Parsed α := { p with uses := us ++ p.uses }

def Parsed.addExtras (es : List String) (p : Parsed α) : Parsed α := { p with extras := es ++ p.extras }

/-- Goes through the items, words before flags. Each round takes an item off, so as many rounds as
there are items are enough, and one for the end. -/
def parseItems : Nat → Bool → List (Item α) → Parsed α
  | 0, _, items => ⟨[], items.map Item.text, none⟩
  | fuel + 1, hasRoom, items =>
    let words := (items.takeWhile fun i => !i.isFlag).length
    let span := wordSpan items
    match items.drop words with
    | [] =>
      if hasRoom then
        ⟨[.word (wordArguments (items.take span))], (items.drop span).map Item.text, none⟩
      else ⟨[], items.map Item.text, none⟩
    | .flag s m :: following =>
      if hasRoom && words > 0 then
        Parsed.addUses [.word (wordArguments (items.take span))] (parseItems fuel false (items.drop span))
      else
        Parsed.addExtras ((items.take words).map Item.text) <|
        match m.flag with
        | none => Parsed.addExtras [s] (parseItems fuel hasRoom following)
        | some f =>
          let cluster := match m.given with
            | some given => g.takeJoined following f m.name m.isJoined given.toList
            | none => g.takeFollowing f following
          match cluster with
          | .error misuse => ⟨[], [], some misuse⟩
          | .ok (uses, count, extras) =>
            Parsed.addUses uses (Parsed.addExtras extras (parseItems fuel hasRoom (following.drop count)))
    | _ :: following => parseItems fuel hasRoom following

def parse (arguments : List String) : Except Ambiguity (Parsed α) := do
  let items ← g.items arguments
  return g.parseItems (items.length + 1) true items

end Grammar
end Flotilla.CommandLine
