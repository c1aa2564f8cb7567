import Flotilla.Text.Pattern
import Mathlib.Tactic.SplitIfs

namespace Flotilla.Text.Pattern

inductive Matches : Pattern → List Char → Prop
  | nothing : Matches nothing []
  | range {a b c : Char} : a ≤ c → c ≤ b → Matches (range a b) [c]
  | seq {p q : Pattern} {xs ys : List Char} : Matches p xs → Matches q ys → Matches (seq p q) (xs ++ ys)
  | first {p q : Pattern} {xs : List Char} : Matches p xs → Matches (alt p q) xs
  | second {p q : Pattern} {xs : List Char} : Matches q xs → Matches (alt p q) xs
  | stop {p : Pattern} : Matches (many p) []
  | more {p : Pattern} {xs ys : List Char} : Matches p xs → Matches (many p) ys →
    Matches (many p) (xs ++ ys)

variable {p q : Pattern} {c : Char} {cs : List Char}

theorem not_matches_never : ¬ Matches never cs := nofun

theorem matches_nothing_iff : Matches nothing cs ↔ cs = [] :=
  ⟨fun h => by cases h; rfl, fun h => h ▸ .nothing⟩

theorem matches_range_iff {a b : Char} : Matches (range a b) cs ↔ ∃ c, cs = [c] ∧ a ≤ c ∧ c ≤ b := by
  constructor
  · rintro ⟨⟩
    next c low high => exact ⟨c, rfl, low, high⟩
  · rintro ⟨c, rfl, low, high⟩
    exact .range low high

theorem matches_seq_iff : Matches (seq p q) cs ↔ ∃ xs ys, cs = xs ++ ys ∧ Matches p xs ∧ Matches q ys := by
  constructor
  · rintro ⟨⟩
    next xs ys first second => exact ⟨xs, ys, rfl, first, second⟩
  · rintro ⟨xs, ys, rfl, first, second⟩
    exact .seq first second

theorem matches_alt_iff : Matches (alt p q) cs ↔ Matches p cs ∨ Matches q cs := by
  constructor
  · rintro ⟨⟩
    next h => exact .inl h
    next h => exact .inr h
  · rintro (h | h)
    · exact .first h
    · exact .second h

/-- A repetition of something that is not empty begins with an instance that is not. -/
theorem matches_many_cons_iff : Matches (many p) (c :: cs) ↔
    ∃ xs ys, cs = xs ++ ys ∧ Matches p (c :: xs) ∧ Matches (many p) ys := by
  constructor
  · intro h
    generalize whole : c :: cs = text at h
    generalize repeated : many p = r at h
    induction h generalizing c cs with
    | @more p xs ys here others _ ih =>
      cases repeated
      cases xs with
      | nil => exact ih whole rfl
      | cons x xs =>
        obtain ⟨rfl, rfl⟩ := List.cons.inj whole
        exact ⟨xs, ys, rfl, here, others⟩
    | stop => cases whole
    | _ => cases repeated
  · rintro ⟨xs, ys, rfl, here, others⟩
    exact .more here others

theorem nullable_iff : p.nullable ↔ Matches p [] := by
  induction p with
  | never => simp [nullable, not_matches_never]
  | nothing => simp [nullable, matches_nothing_iff]
  | range a b => simp [nullable, matches_range_iff]
  | seq p q ihp ihq => simp [nullable, matches_seq_iff, ihp, ihq, and_assoc]
  | alt p q ihp ihq => simp [nullable, matches_alt_iff, ihp, ihq]
  | many p => exact iff_of_true rfl .stop

theorem matches_andThen_iff : Matches (p.andThen q) cs ↔ Matches (seq p q) cs := by
  have nothing_seq : Matches q cs ↔ Matches (seq nothing q) cs := by
    rw [matches_seq_iff]
    constructor
    · exact fun h => ⟨[], cs, rfl, .nothing, h⟩
    · rintro ⟨xs, ys, rfl, first, second⟩
      rwa [matches_nothing_iff.mp first]
  unfold andThen
  split
  · simp [matches_seq_iff, not_matches_never]
  · simp [matches_seq_iff, not_matches_never]
  · exact nothing_seq
  · rfl

theorem matches_orElse_iff : Matches (p.orElse q) cs ↔ Matches (alt p q) cs := by
  unfold orElse
  split
  · simp [matches_alt_iff, not_matches_never]
  · simp [matches_alt_iff, not_matches_never]
  · split
    · next same => simp [matches_alt_iff, same]
    · rfl

theorem matches_derive_iff : Matches (p.derive c) cs ↔ Matches p (c :: cs) := by
  induction p generalizing cs with
  | never => simp [derive, not_matches_never]
  | nothing => simp [derive, not_matches_never, matches_nothing_iff]
  | range a b =>
    rw [derive]
    split_ifs with within
    · rw [Bool.and_eq_true, decide_eq_true_iff, decide_eq_true_iff] at within
      rw [matches_nothing_iff, matches_range_iff]
      constructor
      · rintro rfl
        exact ⟨c, rfl, within⟩
      · rintro ⟨_, same, -⟩
        exact (List.cons.inj same).2
    · refine iff_of_false not_matches_never fun h => within ?_
      obtain ⟨_, same, bounds⟩ := matches_range_iff.mp h
      obtain rfl := (List.cons.inj same).1
      simpa using bounds
  | seq p q ihp ihq =>
    have split : Matches (seq p q) (c :: cs) ↔
        Matches ((p.derive c).andThen q) cs ∨ p.nullable ∧ Matches (q.derive c) cs := by
      rw [matches_andThen_iff, nullable_iff, ihq, matches_seq_iff, matches_seq_iff]
      constructor
      · rintro ⟨xs, ys, whole, first, second⟩
        cases xs with
        | nil => exact .inr ⟨first, by rwa [whole]⟩
        | cons x xs =>
          obtain ⟨rfl, rfl⟩ := List.cons.inj whole
          exact .inl ⟨xs, ys, rfl, ihp.mpr first, second⟩
      · rintro (⟨xs, ys, rfl, first, second⟩ | ⟨first, second⟩)
        · exact ⟨c :: xs, ys, rfl, ihp.mp first, second⟩
        · exact ⟨[], c :: cs, rfl, first, second⟩
    rw [split, derive]
    split_ifs with empty <;> simp [empty, matches_orElse_iff, matches_alt_iff]
  | alt p q ihp ihq => simp [derive, matches_orElse_iff, matches_alt_iff, ihp, ihq]
  | many p ih => simp [derive, matches_andThen_iff, matches_seq_iff, matches_many_cons_iff, ih]

theorem matchesAll_iff : p.matchesAll cs ↔ Matches p cs := by
  induction cs generalizing p with
  | nil => exact nullable_iff
  | cons c cs ih => exact (ih (p := p.derive c)).trans matches_derive_iff

theorem matches_char_iff : Matches (char c) cs ↔ cs = [c] := by
  rw [char, matches_range_iff]
  constructor
  · rintro ⟨x, rfl, low, high⟩
    rw [Char.le_antisymm high low]
  · exact fun h => ⟨c, h, Char.le_refl c, Char.le_refl c⟩

theorem matches_oneOf_iff (ps : List Pattern) : Matches (oneOf ps) cs ↔ ∃ p ∈ ps, Matches p cs := by
  induction ps with
  | nil => simp [oneOf, not_matches_never]
  | cons p r ih =>
    cases r with
    | nil => simp [oneOf]
    | cons q r =>
      rw [oneOf, matches_alt_iff, ih]
      · simp
      · exact List.cons_ne_nil q r

theorem matches_row_cons_iff (ps : List Pattern) : Matches (row (p :: ps)) cs ↔
    ∃ xs ys, cs = xs ++ ys ∧ Matches p xs ∧ Matches (row ps) ys := by
  cases ps with
  | nil => simp [row, matches_nothing_iff]
  | cons q r =>
    rw [row, matches_seq_iff]
    exact List.cons_ne_nil q r

theorem matches_many_of_forall (h : ∀ c ∈ cs, Matches p [c]) : Matches (many p) cs := by
  induction cs with
  | nil => exact .stop
  | cons c r ih =>
    obtain ⟨here, others⟩ := List.forall_mem_cons.mp h
    exact .more here (ih others)

def mentions (c : Char) : Pattern → Bool
  | never => false
  | nothing => false
  | range a b => a ≤ c && c ≤ b
  | seq p q => p.mentions c || q.mentions c
  | alt p q => p.mentions c || q.mentions c
  | many p => p.mentions c

theorem mentions_of_mem (h : Matches p cs) (member : c ∈ cs) : p.mentions c := by
  induction h with
  | nothing => cases member
  | range low high =>
    obtain rfl := List.mem_singleton.mp member
    simp [mentions, low, high]
  | seq _ _ ihp ihq => simpa [mentions] using (List.mem_append.mp member).imp ihp ihq
  | first _ ih => simp [mentions, ih member]
  | second _ ih => simp [mentions, ih member]
  | stop => cases member
  | more _ _ ihp ihq => exact (List.mem_append.mp member).elim ihp ihq

theorem notMem_of_not_mentions (h : Matches p cs) (never : p.mentions c = false) : c ∉ cs :=
  fun member => absurd (mentions_of_mem h member) (Bool.eq_false_iff.mp never)

def requires (c : Char) : Pattern → Bool
  | never => true
  | nothing => false
  | range a b => a == c && b == c
  | seq p q => p.requires c || q.requires c
  | alt p q => p.requires c && q.requires c
  | many _ => false

theorem mem_of_requires (h : Matches p cs) (needed : p.requires c) : c ∈ cs := by
  induction h with
  | nothing => cases needed
  | @range a b d low high =>
    obtain ⟨rfl, rfl⟩ : a = c ∧ b = c := by simpa [requires] using needed
    exact List.mem_singleton.mpr (Char.le_antisymm low high)
  | seq _ _ ihp ihq =>
    exact List.mem_append.mpr ((Bool.or_eq_true_iff.mp needed).imp ihp ihq)
  | first _ ih => exact ih (Bool.and_eq_true_iff.mp needed).1
  | second _ ih => exact ih (Bool.and_eq_true_iff.mp needed).2
  | stop => cases needed
  | more _ _ => cases needed

end Flotilla.Text.Pattern
