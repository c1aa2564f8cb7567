import Flotilla.Proofs.Shell.Line

/-! Quoting shows. A quote or a backslash that has done its work is no part of what a line says. So if
the tokens of a line hold as many of these characters as the line does, nothing in it is quoted, and its
words are words that need no quotes. -/
namespace Flotilla.Shell

def quotes (cs : List Char) : Nat := cs.countP quoting.contains

theorem quotes_append (a b : List Char) : quotes (a ++ b) = quotes a + quotes b := List.countP_append

theorem quotes_cons (c : Char) (cs : List Char) : quotes (c :: cs) = quotes [c] + quotes cs :=
  quotes_append [c] cs

namespace Token

def text : Token → String
  | word t => t
  | expanded t => t
  | operator t => t

def IsPlain : Token → Prop
  | word w => IsPlainWord w
  | expanded _ => False
  | operator _ => True

end Token

theorem quotes_reverse (ts : List Token) :
    quotes (ts.reverse.flatMap fun t => t.text.toList) = quotes (ts.flatMap fun t => t.text.toList) :=
  ((List.reverse_perm ts).flatMap_right _).countP_eq _

def Part.chars : Part → List Char
  | nothing => []
  | word _ cs => cs
  | operator cs => cs

/-- A backslash within double quotes that may yet turn out to stand for itself. -/
def Scan.Mode.owed : Mode → Nat
  | escaped true => 1
  | _ => 0

namespace Scan

/-- The quoting characters that stand for themselves in what has been read. -/
def quotes (s : Scan) : Nat :=
  Shell.quotes s.part.chars + Shell.quotes (s.tokens.flatMap fun t => t.text.toList)

theorem quotes_finish (s : Scan) : s.finish.quotes = s.quotes := by
  obtain ⟨mode, part, done⟩ := s
  cases part with
  | nothing => rfl
  | word e cs => cases e <;> simp [finish, quotes, Part.token?, Part.chars, Token.text, Shell.quotes]
  | operator cs => simp [finish, quotes, Part.token?, Part.chars, Token.text, Shell.quotes]

theorem quotes_begin (s : Scan) (p : Part) :
    ({ s.finish with part := p } : Scan).quotes = s.quotes + Shell.quotes p.chars := by
  have kept := s.quotes_finish
  simp only [finish, quotes, Part.chars, Shell.quotes, List.countP_nil] at kept ⊢
  omega

theorem quotes_openWord (s : Scan) : s.openWord.quotes = s.quotes := by
  unfold openWord
  split
  · rfl
  · exact s.quotes_begin (.word false [])

theorem quotes_add (s : Scan) (c : Char) (e : Bool) :
    (s.add c e).quotes = s.quotes + Shell.quotes [c] := by
  unfold add
  split
  · next held =>
    simp only [quotes, held, Part.chars, Shell.quotes, List.countP_cons, List.countP_nil]
    omega
  · exact s.quotes_begin (.word e [c])

theorem extend?_eq_some {p q : Part} {c : Char} (h : p.extend? c = some q) :
    ∃ cs, p = .operator cs ∧ q = .operator (cs ++ [c]) := by
  cases p with
  | operator cs =>
    simp only [Part.extend?] at h
    split at h
    · exact ⟨cs, rfl, (Option.some.inj h).symm⟩
    · cases h
  | nothing => cases h
  | word e cs => cases h

theorem quotes_readBare_le (s : Scan) (c : Char) :
    (s.readBare c).quotes ≤ s.quotes + Shell.quotes [c] := by
  unfold readBare
  split
  · next p longer =>
    obtain ⟨cs, held, rfl⟩ := extend?_eq_some longer
    simp only [quotes, held, Part.chars, Shell.quotes, List.countP_append]
    omega
  · have opened := Nat.le_add_right_of_le (k := Shell.quotes [c]) (Nat.le_of_eq s.quotes_openWord)
    have finished := Nat.le_add_right_of_le (k := Shell.quotes [c]) (Nat.le_of_eq s.quotes_finish)
    repeat' split
    · exact Nat.le_add_right s.quotes _
    · exact opened
    · exact opened
    · exact Nat.le_add_right s.quotes _
    · exact Nat.le_of_eq (s.quotes_begin (.operator [c]))
    · exact finished
    · exact finished
    · exact Nat.le_of_eq (s.quotes_add c false)

@[simp] theorem quotes_inMode (s : Scan) (m : Mode) : ({ s with mode := m } : Scan).quotes = s.quotes :=
  rfl

@[simp] theorem mode_add (s : Scan) (c : Char) (e : Bool) : (s.add c e).mode = s.mode := by
  unfold add
  split <;> rfl

theorem owed_readBare {s : Scan} (bare : s.mode = .bare) (c : Char) :
    (s.readBare c).mode.owed = 0 := by
  unfold readBare openWord
  repeat' split
  all_goals simp [finish, bare, Mode.owed]

theorem quotes_next_le (s : Scan) (c : Char) :
    (s.next c).quotes + (s.next c).mode.owed ≤ s.quotes + s.mode.owed + Shell.quotes [c] := by
  unfold next
  split
  · next bare =>
    have read := s.quotes_readBare_le c
    have owed := owed_readBare bare c
    omega
  · next single => split <;> simp [quotes_add, single, Mode.owed]
  · next double =>
    repeat' split
    · simp [double, Mode.owed]
    · next backslash => simp [backslash, double, Mode.owed, Shell.quotes, quoting]
    · simp [quotes_add, double, Mode.owed]
  · next escaped => split <;> simp [quotes_add, escaped, Mode.owed]
  · next escaped =>
    repeat' split
    · simp only [quotes_inMode, escaped, Mode.owed]
      omega
    · simp [quotes_add, escaped, Mode.owed]
    · simp [quotes_add, escaped, Mode.owed, Shell.quotes, quoting]
  · next comment =>
    split
    · next ends =>
      have read := ({ s with mode := .bare } : Scan).quotes_readBare_le c
      have owed := owed_readBare (s := { s with mode := .bare }) rfl c
      simp only [quotes_inMode] at read
      omega
    · simp [comment, Mode.owed]
  · next lost => simp [lost, Mode.owed]

theorem quotes_readAll_le (s : Scan) (cs : List Char) :
    (s.readAll cs).quotes + (s.readAll cs).mode.owed ≤ s.quotes + s.mode.owed + Shell.quotes cs := by
  induction cs generalizing s with
  | nil => exact Nat.le_add_right _ _
  | cons c r ih =>
    have first := s.quotes_next_le c
    have rest := ih (s.next c)
    rw [readAll_cons, quotes_cons]
    omega

structure IsPlain (s : Scan) : Prop where
  mode : s.mode = .bare ∨ s.mode = .comment ∨ s.mode = .lost
  part : ∀ t ∈ s.part.token?, t.IsPlain
  done : ∀ t ∈ s.tokens, t.IsPlain

namespace IsPlain
variable {s : Scan} {c : Char}

theorem owed (h : s.IsPlain) : s.mode.owed = 0 := by
  obtain bare | comment | lost := h.mode
  · rw [bare, Mode.owed]
    simp
  · rw [comment, Mode.owed]
    simp
  · rw [lost, Mode.owed]
    simp

theorem finish (h : s.IsPlain) : ∀ t ∈ s.finish.tokens, t.IsPlain := by
  intro t ht
  rcases List.mem_append.mp ht with last | before
  · exact h.part t (Option.mem_toList.mp last)
  · exact h.done t before

theorem add (h : s.IsPlain) (plain : isPlain c) (start : s.part.isWord ∨ c ≠ '#') :
    (s.add c false).IsPlain := by
  unfold Scan.add
  split
  · next e cs held =>
    cases e with
    | true => exact (h.part (.expanded _) (by rw [held]; rfl)).elim
    | false =>
      have before : IsPlainWord (String.ofList cs.reverse) := h.part (.word _) (by rw [held]; rfl)
      have longer := before.append (r := String.ofList [c]) (by simpa using plain)
      rw [← String.ofList_append, ← List.reverse_cons] at longer
      refine ⟨h.mode, ?_, h.done⟩
      rintro t ⟨⟩
      exact longer
  · next other =>
    have begins : c ≠ '#' := by
      refine start.resolve_left fun isWord => ?_
      cases held : s.part with
      | word e cs => exact other e cs held
      | nothing => simp [held, Part.isWord] at isWord
      | operator cs => simp [held, Part.isWord] at isWord
    refine ⟨h.mode, ?_, h.finish⟩
    rintro t ⟨⟩
    exact ⟨by simp, by simpa using plain, by simpa using begins⟩

theorem readBare (h : s.IsPlain) (hc : c ∉ quoting) : (s.readBare c).IsPlain := by
  have unquoted : c ≠ '\\' ∧ c ≠ '\'' ∧ c ≠ '"' := by simpa [quoting] using hc
  unfold Scan.readBare
  split
  · next p longer =>
    obtain ⟨cs, -, rfl⟩ := extend?_eq_some longer
    refine ⟨h.mode, ?_, h.done⟩
    rintro t ⟨⟩
    trivial
  · rw [if_neg unquoted.1, if_neg unquoted.2.1, if_neg unquoted.2.2]
    repeat' split
    · exact ⟨.inr (.inr rfl), h.part, h.done⟩
    · refine ⟨h.mode, ?_, h.finish⟩
      rintro t ⟨⟩
      trivial
    · exact ⟨h.mode, by simp [Scan.finish, Part.token?], h.finish⟩
    · exact ⟨.inr (.inl rfl), by simp [Scan.finish, Part.token?], h.finish⟩
    · next expands operates blank hash =>
      refine h.add ?_ ?_
      · simp_all [isPlain, special]
      · by_cases isWord : s.part.isWord
        · exact .inl isWord
        · exact .inr fun sign => hash ⟨sign, by simpa using isWord⟩

theorem next (h : s.IsPlain) (hc : c ∉ quoting) : (s.next c).IsPlain := by
  unfold Scan.next
  obtain bare | comment | lost := h.mode
  · rw [bare]
    exact h.readBare hc
  · rw [comment]
    dsimp only
    split
    · exact IsPlain.readBare ⟨.inl rfl, h.part, h.done⟩ hc
    · exact h
  · rw [lost]
    exact h

theorem quotes_next_le (h : s.IsPlain) (hc : c ∈ quoting) :
    (s.next c).quotes + (s.next c).mode.owed ≤ s.quotes := by
  have goesOn : s.part.extend? c = none := by
    have quotes : quoting.all fun q => !operating.contains q && q != '-' := by decide
    have none := List.all_eq_true.mp quotes c hc
    simp only [Bool.and_eq_true, Bool.not_eq_true', List.contains_eq_mem, decide_eq_false_iff_not,
      bne_iff_ne] at none
    exact extend?_of_notMem none.1 none.2 s.part
  have opened := Nat.le_of_eq s.quotes_openWord
  unfold Scan.next
  obtain bare | comment | lost := h.mode
  · rw [bare]
    simp only [Scan.readBare, goesOn]
    have cases : c = '\\' ∨ c = '\'' ∨ c = '"' := by simpa [quoting] using hc
    obtain rfl | rfl | rfl := cases
    · exact Nat.le_refl s.quotes
    · exact opened
    · exact opened
  · have stays : c ≠ '\n' := by
      rintro rfl
      exact absurd hc (by decide)
    simp [comment, stays, Mode.owed]
  · simp [lost, Mode.owed]

end IsPlain

/-- Either nothing was quoted so far, or less has been read than was written. -/
theorem isPlain_or_lt {s : Scan} (h : s.IsPlain) (cs : List Char) :
    (s.readAll cs).IsPlain ∨ (s.readAll cs).quotes < s.quotes + Shell.quotes cs := by
  induction cs generalizing s with
  | nil => exact .inl h
  | cons c r ih =>
    rw [readAll_cons, quotes_cons]
    -- What quotes is lost for good; up to the first such character the scan is plain.
    by_cases hc : c ∈ quoting
    · have lost := h.quotes_next_le hc
      have rest := (s.next c).quotes_readAll_le r
      have one : Shell.quotes [c] = 1 := by simp [Shell.quotes, hc]
      exact .inr (by omega)
    · have first := s.quotes_next_le c
      rw [h.owed] at first
      exact (ih (h.next hc)).imp_right fun less => by omega

end Scan

theorem isPlainWord_of_tokens {line : String} {ts : List Token} (reads : tokens line = some ts)
    (kept : quotes line.toList ≤ quotes (ts.flatMap fun t => t.text.toList)) {w : String}
    (hw : .word w ∈ ts) : IsPlainWord w := by
  have start : ({} : Scan).IsPlain := ⟨.inl rfl, by simp [Part.token?], by simp⟩
  have whole : ts = (({} : Scan).readAll line.toList).finish.tokens.reverse := by
    unfold tokens Scan.result? at reads
    split at reads
    · exact (Option.some.inj reads).symm
    · exact (Option.some.inj reads).symm
    · cases reads
  have said : (({} : Scan).readAll line.toList).quotes =
      quotes (ts.flatMap fun t => t.text.toList) := by
    rw [← Scan.quotes_finish, whole, quotes_reverse]
    exact Nat.zero_add _
  obtain plain | less := Scan.isPlain_or_lt start line.toList
  · rw [whole, List.mem_reverse] at hw
    exact plain.finish _ hw
  · have empty : ({} : Scan).quotes = 0 := rfl
    omega

end Flotilla.Shell
