import Flotilla.Proofs.Text.Pieces
import Flotilla.Shell.Quote

/-! A line as a shell reads it before it runs anything: words, and operators between them. Blanks part
words. A quote or a backslash takes the meaning from what it covers and is itself dropped. What begins
with a dollar sign or a backquote is worked out by the shell first; outside of double quotes it may come
to any number of words, so that a line with it has no reading. Tildes and patterns stay as they are. -/
namespace Flotilla.Shell

inductive Token
  | word (text : String)
  /-- A word that is worked out in part, within double quotes. -/
  | expanded (text : String)
  | operator (symbol : String)
  deriving DecidableEq, Repr

/-- The end of a line counts as an operator. -/
def operators : List (List Char) :=
  ["&", "&&", "|", "||", ";", ";;", "<", "<<", "<<-", "<&", "<>", ">", ">>", ">&", ">|", "(", ")",
    "\n"].map String.toList

def quoting : List Char := ['\\', '\'', '"']
def expanding : List Char := ['$', '\x60']
def blanks : List Char := [' ', '\t']

def operating : List Char := ['|', '&', ';', '<', '>', '(', ')', '\n']

def special : List Char := quoting ++ expanding ++ operating ++ blanks

def isPlain (c : Char) : Bool := !special.contains c

/-- A word that needs no quotes. With a hash sign at its start it would be a comment. -/
def IsPlainWord (w : String) : Prop :=
  w ≠ "" ∧ w.toList.all isPlain ∧ w.toList.head? ≠ some '#'

instance (w : String) : Decidable (IsPlainWord w) := inferInstanceAs (Decidable (_ ∧ _ ∧ _))

/-- A word that a program takes for an option. -/
def isOption (w : String) : Bool := w.toList.head? = some '-'

/-- What is being read. The characters of a word are in reverse. -/
inductive Part
  | nothing
  | word (isExpanded : Bool) (chars : List Char)
  | operator (chars : List Char)
  deriving DecidableEq, Repr

namespace Part

def isWord : Part → Bool
  | word _ _ => true
  | _ => false

def token? : Part → Option Token
  | nothing => none
  | word false cs => some (.word (String.ofList cs.reverse))
  | word true cs => some (.expanded (String.ofList cs.reverse))
  | operator cs => some (.operator (String.ofList cs))

def extend? (p : Part) (c : Char) : Option Part :=
  match p with
  | operator cs => if operators.contains (cs ++ [c]) then some (operator (cs ++ [c])) else none
  | _ => none

end Part

inductive Scan.Mode
  | bare
  | single
  | double
  /-- Right after a backslash, within double quotes or without. -/
  | escaped (isDouble : Bool)
  | comment
  /-- Past an expansion outside of quotes. -/
  | lost
  deriving DecidableEq, Repr

/-- How far a line has been read. The tokens are the latest first. -/
structure Scan where
  mode : Scan.Mode := .bare
  part : Part := .nothing
  tokens : List Token := []
  deriving DecidableEq, Repr

namespace Scan

def finish (s : Scan) : Scan := { s with part := .nothing, tokens := s.part.token?.toList ++ s.tokens }

/-- A quote begins a word even if nothing is in it. -/
def openWord (s : Scan) : Scan :=
  if s.part.isWord then s else { s.finish with part := .word false [] }

def add (s : Scan) (c : Char) (expands : Bool) : Scan :=
  match s.part with
  | .word e cs => { s with part := .word (e || expands) (c :: cs) }
  | _ => { s.finish with part := .word expands [c] }

def readBare (s : Scan) (c : Char) : Scan :=
  match s.part.extend? c with
  | some p => { s with part := p }
  | none =>
    if c = '\\' then { s with mode := .escaped false }
    else if c = '\'' then { s.openWord with mode := .single }
    else if c = '"' then { s.openWord with mode := .double }
    else if expanding.contains c then { s with mode := .lost }
    else if operating.contains c then { s.finish with part := .operator [c] }
    else if blanks.contains c then s.finish
    else if c = '#' ∧ !s.part.isWord then { s.finish with mode := .comment }
    else s.add c false

/-- A line that ends with a backslash goes on in the next. -/
def next (s : Scan) (c : Char) : Scan :=
  match s.mode with
  | .bare => s.readBare c
  | .single => if c = '\'' then { s with mode := .bare } else s.add c false
  | .double =>
    if c = '"' then { s with mode := .bare }
    else if c = '\\' then { s with mode := .escaped true }
    else s.add c (expanding.contains c)
  | .escaped false => if c = '\n' then { s with mode := .bare } else { s.add c false with mode := .bare }
  | .escaped true =>
    if c = '\n' then { s with mode := .double }
    else if c = '\\' ∨ c = '"' ∨ expanding.contains c then { s.add c false with mode := .double }
    else { (s.add '\\' false).add c false with mode := .double }
  | .comment => if c = '\n' then ({ s with mode := .bare } : Scan).readBare c else s
  | .lost => s

def readAll (s : Scan) (cs : List Char) : Scan := cs.foldl next s

def result? (s : Scan) : Option (List Token) :=
  match s.mode with
  | .bare | .comment => some s.finish.tokens.reverse
  | _ => none

end Scan

/-- The words and operators of a line, unless a quote is left open in it or its words depend on what the
shell works out. -/
def tokens (line : String) : Option (List Token) := (({} : Scan).readAll line.toList).result?

namespace Scan

@[simp] theorem readAll_nil (s : Scan) : s.readAll [] = s := rfl

@[simp] theorem readAll_cons (s : Scan) (c : Char) (cs : List Char) :
    s.readAll (c :: cs) = (s.next c).readAll cs := rfl

@[simp] theorem readAll_append (s : Scan) (a b : List Char) :
    s.readAll (a ++ b) = (s.readAll a).readAll b := List.foldl_append

end Scan

open Scan

/-- A text that reads as one token wherever a token may begin. -/
def Spells (source : String) (t : Token) : Prop :=
  ∀ done, ∃ part, readAll ⟨.bare, .nothing, done⟩ source.toList = ⟨.bare, part, done⟩ ∧
    part.token? = some t

theorem extend?_of_notMem {c : Char} (h : c ∉ operating) (other : c ≠ '-') (p : Part) :
    p.extend? c = none := by
  cases p with
  | operator cs =>
    have inside : operators.all (·.all fun d => operating.contains d || d == '-') := by decide
    have absent : cs ++ [c] ∉ operators := by
      intro mem
      have last := List.all_eq_true.mp (List.all_eq_true.mp inside _ mem) c (by simp)
      simp [h, other] at last
    simp [Part.extend?, absent]
  | nothing => rfl
  | word e cs => rfl

theorem next_blank (part : Part) (done : List Token) :
    next ⟨.bare, part, done⟩ ' ' = ⟨.bare, .nothing, part.token?.toList ++ done⟩ := by
  have goesOn := extend?_of_notMem (c := ' ') (by decide) (by decide) part
  simp [next, readBare, goesOn, expanding, operating, blanks, finish]

theorem next_word {c : Char} (h : isPlain c) (e : Bool) (seen : List Char) (done : List Token) :
    next ⟨.bare, .word e seen, done⟩ c = ⟨.bare, .word e (c :: seen), done⟩ := by
  simp_all [next, readBare, Part.extend?, Part.isWord, add, isPlain, special, quoting]

theorem readAll_word {cs : List Char} (h : ∀ c ∈ cs, isPlain c) (e : Bool) (seen : List Char)
    (done : List Token) :
    readAll ⟨.bare, .word e seen, done⟩ cs = ⟨.bare, .word e (cs.reverse ++ seen), done⟩ := by
  induction cs generalizing seen with
  | nil => rfl
  | cons c r ih =>
    rw [readAll_cons, next_word (h c List.mem_cons_self),
      ih fun d hd => h d (List.mem_cons_of_mem c hd)]
    simp

theorem readAll_plain {w : String} (h : IsPlainWord w) (done : List Token) :
    readAll ⟨.bare, .nothing, done⟩ w.toList = ⟨.bare, .word false w.toList.reverse, done⟩ := by
  obtain ⟨written, plain, start⟩ := h
  rw [List.all_eq_true] at plain
  cases chars : w.toList with
  | nil => exact absurd (String.toList_inj.mp chars) written
  | cons c r =>
    rw [chars] at plain start
    have first : next ⟨.bare, .nothing, done⟩ c = ⟨.bare, .word false [c], done⟩ := by
      have plain := plain c List.mem_cons_self
      simp_all [next, readBare, Part.extend?, Part.isWord, Part.token?, add, finish, isPlain, special,
        quoting]
    rw [readAll_cons, first, readAll_word fun d hd => plain d (List.mem_cons_of_mem c hd)]
    simp

theorem spells_word {w : String} (h : IsPlainWord w) : Spells w (.word w) := fun done =>
  ⟨_, readAll_plain h done, by simp [Part.token?]⟩

theorem IsPlainWord.append {w r : String} (h : IsPlainWord w) (hr : r.toList.all isPlain) :
    IsPlainWord (w ++ r) := by
  obtain ⟨written, plain, start⟩ := h
  have begun : w.toList ≠ [] := fun none => written (String.toList_inj.mp none)
  refine ⟨fun none => begun ?_, ?_, ?_⟩
  · have empty : w.toList ++ r.toList = [] := by rw [← String.toList_append, none]; rfl
    exact (List.append_eq_nil_iff.mp empty).1
  · rw [String.toList_append, List.all_append, plain, hr, Bool.and_self]
  · obtain ⟨c, cs, chars⟩ := List.exists_cons_of_ne_nil begun
    simpa [String.toList_append, chars] using start

theorem isOption_append {w : String} (h : w ≠ "") (below : String) :
    isOption (w ++ below) = isOption w := by
  have begun : w.toList ≠ [] := fun none => h (String.toList_inj.mp none)
  obtain ⟨c, cs, chars⟩ := List.exists_cons_of_ne_nil begun
  simp [isOption, String.toList_append, chars]

theorem spells_and : Spells "&&" (.operator "&&") := fun _ => ⟨.operator ['&', '&'], rfl, rfl⟩

theorem tokens_joinWith {ps : List (String × Token)} (spells : ∀ p ∈ ps, Spells p.1 p.2) :
    tokens (Text.joinWith " " (ps.map (·.1))) = some (ps.map (·.2)) := by
  have reads (done : List Token) : ∃ part before,
      readAll ⟨.bare, .nothing, done⟩ (Text.joinWith " " (ps.map (·.1))).toList =
          ⟨.bare, part, before⟩ ∧
        part.token?.toList ++ before = (ps.map (·.2)).reverse ++ done := by
    induction ps generalizing done with
    | nil => exact ⟨.nothing, done, rfl, rfl⟩
    | cons p r ih =>
      obtain ⟨part, first, token⟩ := spells p List.mem_cons_self done
      cases r with
      | nil => exact ⟨part, done, first, by simp [token]⟩
      | cons q r =>
        obtain ⟨last, before, others, whole⟩ :=
          ih (fun q hq => spells q (List.mem_cons_of_mem p hq)) (p.2 :: done)
        refine ⟨last, before, ?_, by simpa using whole⟩
        rw [← others]
        simp [Text.joinWith, first, next_blank, token]
  obtain ⟨part, before, read, whole⟩ := reads []
  rw [List.append_nil] at whole
  simp [tokens, read, result?, finish, whole]

theorem isPlain_of_isSafe {c : Char} (h : isSafe c) : isPlain c := by
  have risky : special.all (!isSafe ·) := by decide
  have absent : c ∉ special := fun mem => by simpa [h] using List.all_eq_true.mp risky c mem
  simpa [isPlain] using absent

theorem readAll_quotedChars (cs : List Char) (e : Bool) (seen : List Char) (done : List Token) :
    readAll ⟨.single, .word e seen, done⟩ (cs.flatMap quotedChar) =
      ⟨.single, .word e (cs.reverse ++ seen), done⟩ := by
  induction cs generalizing seen with
  | nil => rfl
  | cons c r ih =>
    have first : readAll ⟨.single, .word e seen, done⟩ (quotedChar c) =
        ⟨.single, .word e (c :: seen), done⟩ := by
      by_cases quote : c = '\''
      · subst quote
        cases e <;> rfl
      · simp [quotedChar, quote, next, add]
    rw [List.flatMap_cons, readAll_append, first, ih]
    simp

/-- Whatever the text is, within a word its quoted form reads as the text. -/
theorem readAll_quoteChars (cs : List Char) (e : Bool) (seen : List Char) (done : List Token) :
    readAll ⟨.bare, .word e seen, done⟩ (quoteChars cs) =
      ⟨.bare, .word e (cs.reverse ++ seen), done⟩ := by
  unfold quoteChars
  split
  · next safe =>
    rw [Bool.and_eq_true, List.all_eq_true] at safe
    exact readAll_word (fun c hc => isPlain_of_isSafe (safe.2 c hc)) e seen done
  · have opened : next ⟨.bare, .word e seen, done⟩ '\'' = ⟨.single, .word e seen, done⟩ := rfl
    rw [readAll_cons, opened, readAll_append, readAll_quotedChars]
    rfl

theorem quote_inj {a b : String} (h : quote a = quote b) : a = b := by
  have chars : quoteChars a.toList = quoteChars b.toList := String.ofList_injective h
  have read := readAll_quoteChars a.toList false [] []
  rw [chars, readAll_quoteChars] at read
  exact String.toList_inj.mp (by simpa using read.symm)

theorem spells_assignment {name : String} (h : IsPlainWord name) (value : String) :
    Spells (name ++ quote value) (.word (name ++ value)) := by
  intro done
  refine ⟨.word false (value.toList.reverse ++ name.toList.reverse), ?_, ?_⟩
  · rw [String.toList_append, readAll_append, readAll_plain h, quote, String.toList_ofList,
      readAll_quoteChars]
  · simp [Part.token?]

end Flotilla.Shell
