import Flotilla.Value

/-! The grammar of written integers: blanks, a sign or none, digits of any script with single underscores
between them, and blanks. Main statement: a text is read as an integer exactly if it is a written form
of it, with no more digits than may be read. -/
namespace Flotilla

namespace Text

theorem exists_trimBy (p : Char → Bool) (cs : List Char) :
    ∃ front back, cs = front ++ trimBy p cs ++ back ∧ (∀ c ∈ front, p c) ∧ ∀ c ∈ back, p c := by
  have ends (r : List Char) : r = (r.reverse.dropWhile p).reverse ++ (r.reverse.takeWhile p).reverse := by
    rw [← List.reverse_append, List.takeWhile_append_dropWhile, List.reverse_reverse]
  refine ⟨cs.takeWhile p, ((cs.dropWhile p).reverse.takeWhile p).reverse, ?_, ?_, ?_⟩
  · rw [trimBy, List.append_assoc, ← ends, List.takeWhile_append_dropWhile]
  · exact fun c hc => List.all_eq_true.mp List.all_takeWhile c hc
  · exact fun c hc => List.all_eq_true.mp List.all_takeWhile c (List.mem_reverse.mp hc)

theorem trimBy_eq {p : Char → Bool} {front core back : List Char} (left : ∀ c ∈ front, p c)
    (right : ∀ c ∈ back, p c) (first : ∀ c ∈ core.head?, p c = false)
    (last : ∀ c ∈ core.getLast?, p c = false) (some : core ≠ []) :
    trimBy p (front ++ core ++ back) = core := by
  have begun (r : List Char) : (core ++ r).dropWhile p = core ++ r := by
    obtain ⟨c, cs, rfl⟩ := List.exists_cons_of_ne_nil some
    rw [List.cons_append, List.dropWhile_cons, first c rfl, if_neg Bool.false_ne_true]
  have ended : core.reverse.dropWhile p = core.reverse := by
    obtain ⟨cs, c, rfl⟩ := (List.eq_nil_or_concat core).resolve_left some
    rw [List.concat_eq_append] at last ⊢
    rw [List.reverse_append, List.reverse_singleton, List.singleton_append, List.dropWhile_cons,
      last c (by simp), if_neg Bool.false_ne_true]
  rw [trimBy, List.append_assoc, List.dropWhile_append_of_pos left, begun, List.reverse_append,
    List.dropWhile_append_of_pos (fun c hc => right c (List.mem_reverse.mp hc)), ended,
    List.reverse_reverse]

theorem not_isPadding_of_digit? {c : Char} {d : Nat} (h : digit? c = some d) : isPadding c = false := by
  have apart : ∀ z ∈ zeros, 32 < z ∧ (z + 9 < 0x85 ∨ 0x85 < z) ∧ (z + 9 < 0xA0 ∨ 0xA0 < z) ∧
      (z + 9 < 0x1680 ∨ 0x1680 < z) ∧ (z + 9 < 0x2000 ∨ 0x200A < z) ∧ (z + 9 < 0x2028 ∨ 0x2029 < z) ∧
      (z + 9 < 0x202F ∨ 0x202F < z) ∧ (z + 9 < 0x205F ∨ 0x205F < z) ∧ (z + 9 < 0x3000 ∨ 0x3000 < z) := by
    decide
  obtain ⟨z, found, -⟩ := Option.map_eq_some_iff.mp h
  have bounds := List.find?_some found
  have outside := apart z (List.mem_of_find?_eq_some found)
  rw [Bool.and_eq_true, decide_eq_true_eq, decide_eq_true_eq] at bounds
  have blank : isBlank c = false := by
    simp only [isBlank, Bool.or_eq_false_iff, Bool.and_eq_false_iff, decide_eq_false_iff_not,
      beq_eq_false_iff_ne]
    omega
  rw [isPadding, blank, Bool.false_and]

end Text

namespace Number

/-- Digits, with at most one underscore between two of them, and what they stand for. -/
inductive Digits : List Char → List Nat → Prop
  | last {c : Char} {d : Nat} : Text.digit? c = some d → Digits [c] [d]
  | next {c : Char} {d : Nat} {cs : List Char} {ds : List Nat} :
    Text.digit? c = some d → Digits cs ds → Digits (c :: cs) (d :: ds)
  | spaced {c : Char} {d : Nat} {cs : List Char} {ds : List Nat} :
    Text.digit? c = some d → Digits cs ds → Digits (c :: '_' :: cs) (d :: ds)

/-- A sign, or none, before as many digits as may be read. -/
inductive Signed : List Char → Int → Prop
  | bare {cs : List Char} {ds : List Nat} :
    Digits cs ds → ds.length ≤ digitLimit → Signed cs (Text.ofDigits ds)
  | plus {cs : List Char} {ds : List Nat} :
    Digits cs ds → ds.length ≤ digitLimit → Signed ('+' :: cs) (Text.ofDigits ds)
  | minus {cs : List Char} {ds : List Nat} :
    Digits cs ds → ds.length ≤ digitLimit → Signed ('-' :: cs) (-(Text.ofDigits ds : Int))

def Written (s : String) (i : Int) : Prop :=
  ∃ front core back, s.toList = front ++ core ++ back ∧ (∀ c ∈ front, Text.isPadding c) ∧
    (∀ c ∈ back, Text.isPadding c) ∧ Signed core i

namespace Digits
variable {cs : List Char} {ds : List Nat}

theorem exists_first (h : Digits cs ds) : ∃ c r d, cs = c :: r ∧ Text.digit? c = some d := by
  cases h with
  | last digit => exact ⟨_, _, _, rfl, digit⟩
  | next digit => exact ⟨_, _, _, rfl, digit⟩
  | spaced digit => exact ⟨_, _, _, rfl, digit⟩

theorem exists_last (h : Digits cs ds) : ∃ r c d, cs = r ++ [c] ∧ Text.digit? c = some d := by
  induction h with
  | last digit => exact ⟨[], _, _, rfl, digit⟩
  | next digit digits ih =>
    obtain ⟨r, c, d, rfl, final⟩ := ih
    exact ⟨_ :: r, c, d, rfl, final⟩
  | spaced digit digits ih =>
    obtain ⟨r, c, d, rfl, final⟩ := ih
    exact ⟨_ :: '_' :: r, c, d, rfl, final⟩

theorem cons_iff {c : Char} {d : Nat} (digit : Text.digit? c = some d) {e : Nat} :
    Digits (c :: cs) (e :: ds) ↔ e = d ∧
      (cs = [] ∧ ds = [] ∨ Digits cs ds ∨ ∃ r, cs = '_' :: r ∧ Digits r ds) := by
  constructor
  · intro h
    cases h with
    | last other => exact ⟨Option.some.inj (other.symm.trans digit), .inl ⟨rfl, rfl⟩⟩
    | next other digits => exact ⟨Option.some.inj (other.symm.trans digit), .inr (.inl digits)⟩
    | spaced other digits =>
      exact ⟨Option.some.inj (other.symm.trans digit), .inr (.inr ⟨_, rfl, digits⟩)⟩
  · rintro ⟨rfl, ⟨rfl, rfl⟩ | digits | ⟨r, rfl, digits⟩⟩
    · exact .last digit
    · exact .next digit digits
    · exact .spaced digit digits

end Digits

theorem digit?_underscore : Text.digit? '_' = none := by decide

theorem digit?_signs : Text.digit? '+' = none ∧ Text.digit? '-' = none := by decide

/-- A run that uses up all characters has gone over digits, or, after a digit, also over nothing or
over an underscore and digits. -/
theorem digitRun_eq_some_iff (cs : List Char) (ds : List Nat) :
    (digitRun false cs = some (ds, []) ↔ Digits cs ds) ∧
      (digitRun true cs = some (ds, []) ↔
        cs = [] ∧ ds = [] ∨ Digits cs ds ∨ ∃ r, cs = '_' :: r ∧ Digits r ds) := by
  -- Both flags at once: an underscore clears the flag, and the next digit sets it again.
  induction cs generalizing ds with
  | nil =>
    have none : ¬ Digits [] ds := fun h => by
      obtain ⟨_, _, _, same, -⟩ := h.exists_first
      cases same
    simp [digitRun, none, eq_comm]
  | cons c r ih =>
    cases digit : Text.digit? c with
    | some d =>
      have run (seen : Bool) : digitRun seen (c :: r) = some (ds, []) ↔ Digits (c :: r) ds := by
        rw [digitRun, digit]
        cases ds with
        | nil =>
          have none : ¬ Digits (c :: r) [] := nofun
          simp [none]
        | cons e ds =>
          rw [Digits.cons_iff digit, ← (ih ds).2]
          simp only [Option.map_eq_some_iff, Prod.mk.injEq, List.cons.injEq, Prod.exists]
          grind
      have underscore : c ≠ '_' := by
        rintro rfl
        rw [digit?_underscore] at digit
        cases digit
      rw [run, run]
      simp [underscore]
    | none =>
      have none : ¬ Digits (c :: r) ds := fun h => by
        obtain ⟨_, _, d, same, found⟩ := h.exists_first
        obtain ⟨rfl, rfl⟩ := List.cons.inj same
        rw [digit] at found
        cases found
      rw [digitRun, digitRun, digit]
      by_cases underscore : c = '_'
      · subst underscore
        simp [none, (ih ds).1]
      · simp [underscore, none]

theorem unsigned?_eq_some_ok_iff {cs : List Char} {n : Nat} : unsigned? cs = some (.ok n) ↔
    ∃ ds, Digits cs ds ∧ ds.length ≤ digitLimit ∧ n = Text.ofDigits ds := by
  simp only [← (digitRun_eq_some_iff cs _).1]
  unfold unsigned?
  cases digitRun false cs with
  | none => simp
  | some taken =>
    obtain ⟨ds, rest⟩ := taken
    cases rest with
    | nil =>
      simp only [Option.some.injEq, Prod.mk.injEq, and_true]
      grind
    | cons c r => simp

theorem signed?_eq_some_ok_iff {cs : List Char} {i : Int} :
    signed? cs = some (.ok i) ↔ Signed cs i := by
  have through (r : List Char) : (unsigned? r).map (·.map Int.ofNat) = some (.ok i) ↔
      ∃ n : Nat, unsigned? r = some (.ok n) ∧ (n : Int) = i := by
    rcases unsigned? r with _ | _ | n <;> simp [Except.map]
  have negated (r : List Char) : (unsigned? r).map (·.map fun n => -(n : Int)) = some (.ok i) ↔
      ∃ n : Nat, unsigned? r = some (.ok n) ∧ -(n : Int) = i := by
    rcases unsigned? r with _ | _ | n <;> simp [Except.map, bind, Except.bind, pure, Except.pure]
  have bare {c : Char} {r : List Char} (sign : Text.digit? c = none) (ds : List Nat) :
      ¬ Digits (c :: r) ds := by
    intro digits
    obtain ⟨_, _, _, same, found⟩ := digits.exists_first
    rw [← (List.cons.inj same).1, sign] at found
    cases found
  unfold signed?
  split
  · rw [negated]
    simp only [unsigned?_eq_some_ok_iff]
    constructor
    · rintro ⟨_, ⟨ds, digits, short, rfl⟩, rfl⟩
      exact .minus digits short
    · intro signed
      cases signed with
      | minus digits short => exact ⟨_, ⟨_, digits, short, rfl⟩, rfl⟩
      | bare digits => exact absurd digits (bare digit?_signs.2 _)
  · rw [through]
    simp only [unsigned?_eq_some_ok_iff]
    constructor
    · rintro ⟨_, ⟨ds, digits, short, rfl⟩, rfl⟩
      exact .plus digits short
    · intro signed
      cases signed with
      | plus digits short => exact ⟨_, ⟨_, digits, short, rfl⟩, rfl⟩
      | bare digits => exact absurd digits (bare digit?_signs.1 _)
  · next noMinus noPlus =>
    rw [through]
    simp only [unsigned?_eq_some_ok_iff]
    constructor
    · rintro ⟨_, ⟨ds, digits, short, rfl⟩, rfl⟩
      exact .bare digits short
    · intro signed
      cases signed with
      | bare digits short => exact ⟨_, ⟨_, digits, short, rfl⟩, rfl⟩
      | plus => exact absurd rfl (noPlus _)
      | minus => exact absurd rfl (noMinus _)

theorem Signed.ends {cs : List Char} {i : Int} (h : Signed cs i) : cs ≠ [] ∧
    (∀ c ∈ cs.head?, Text.isPadding c = false) ∧ ∀ c ∈ cs.getLast?, Text.isPadding c = false := by
  have digits {r : List Char} {ds : List Nat} (h : Digits r ds) : r ≠ [] ∧
      (∀ c ∈ r.head?, Text.isPadding c = false) ∧ ∀ c ∈ r.getLast?, Text.isPadding c = false := by
    obtain ⟨c, r', d, front, first⟩ := h.exists_first
    obtain ⟨r'', c', d', back, last⟩ := h.exists_last
    refine ⟨by simp [front], ?_, ?_⟩
    · simpa [front] using Text.not_isPadding_of_digit? first
    · simpa [back] using Text.not_isPadding_of_digit? last
  have signs : Text.isPadding '+' = false ∧ Text.isPadding '-' = false := by decide
  have after {r : List Char} {ds : List Nat} {sign : Char} (h : Digits r ds)
      (proper : Text.isPadding sign = false) : sign :: r ≠ [] ∧
      (∀ c ∈ (sign :: r).head?, Text.isPadding c = false) ∧
      ∀ c ∈ (sign :: r).getLast?, Text.isPadding c = false := by
    obtain ⟨some, -, last⟩ := digits h
    refine ⟨List.cons_ne_nil _ _, by simpa using proper, ?_⟩
    rwa [List.getLast?_cons_of_ne_nil some]
  cases h with
  | bare h => exact digits h
  | plus h => exact after h signs.1
  | minus h => exact after h signs.2

/-- Exactly the written forms of an integer are read as it. -/
theorem read_eq_ok_iff {s : String} {i : Int} : read s = .ok i ↔ Written s i := by
  have signed : read s = .ok i ↔ Signed (Text.trimBy Text.isPadding s.toList) i := by
    rw [← signed?_eq_some_ok_iff, read]
    rcases signed? (Text.trimBy Text.isPadding s.toList) with _ | _ | j <;> simp
  rw [signed]
  constructor
  · intro h
    obtain ⟨front, back, whole, left, right⟩ := Text.exists_trimBy Text.isPadding s.toList
    exact ⟨front, _, back, whole, left, right, h⟩
  · rintro ⟨front, core, back, whole, left, right, h⟩
    obtain ⟨some, first, last⟩ := h.ends
    rwa [whole, Text.trimBy_eq left right first last some]

theorem fits_iff {i : Int} : fits i ↔ i.natAbs < Nat.pow 10 digitLimit := by
  have short (k : Nat) (some : 0 < k) : (Nat.toDigits 10 i.natAbs).length ≤ k ↔ i.natAbs < Nat.pow 10 k :=
    Nat.length_toDigits_le_iff (by decide) some
  rw [fits, decide_eq_true_iff, short digitLimit (by decide)]

def greatest : Nat := Nat.pow 10 digitLimit - 1

theorem not_fits_after_greatest : ¬ fits (greatest + (1 : Nat)) := by
  rw [fits_iff, greatest, Nat.pow_eq, ← Int.natCast_add, Nat.sub_add_cancel (Nat.pow_pos (by decide)),
    Int.natAbs_natCast]
  exact Nat.lt_irrefl _

end Number

namespace Value

/-- The integer that a setting stands for: a number, a truth value, or a text. -/
inductive Denotes : Value → Int → Prop
  | num (i : Int) : Denotes (.num (.int i)) i
  | bool (b : Bool) : Denotes (.bool b) (if b then 1 else 0)
  | text {s : String} {i : Int} : Number.Written s i → Denotes (.text s) i

def IsCount : Value → Prop
  | .num (.int _) => True
  | .bool _ => True
  | .text _ => True
  | _ => False

theorem toInt_eq_ok_iff {v : Value} (h : v.IsCount) {i : Int} : v.toInt = .ok i ↔ v.Denotes i := by
  constructor
  · intro read
    cases v with
    | num n =>
      cases n with
      | int j =>
        obtain rfl := Except.ok.inj read
        exact .num j
      | real x => exact h.elim
    | bool b =>
      obtain rfl := Except.ok.inj read
      exact .bool b
    | text s =>
      refine .text (Number.read_eq_ok_iff.mp ?_)
      rw [toInt] at read
      cases found : Number.read s <;> rw [found] at read <;> cases read
      rfl
    | _ => exact h.elim
  · intro denotes
    cases denotes with
    | num i => rfl
    | bool b => rfl
    | text written => rw [toInt, Number.read_eq_ok_iff.mpr written]

theorem Denotes.unique {v : Value} {i j : Int} (hi : v.Denotes i) (hj : v.Denotes j) : i = j := by
  have count : v.IsCount := by cases hi <;> trivial
  exact Except.ok.inj (((toInt_eq_ok_iff count).mpr hi).symm.trans ((toInt_eq_ok_iff count).mpr hj))

theorem of_toInt_eq_error {v : Value} (h : v.IsCount) {why : NotInteger} (failed : v.toInt = .error why) :
    (∃ unreadable, why = .unreadable unreadable) ∧ v.isWritable := by
  cases v with
  | num n =>
    cases n with
    | int i => cases failed
    | real x => exact h.elim
  | bool b => cases failed
  | text s =>
    rw [toInt] at failed
    cases found : Number.read s <;> rw [found] at failed <;> cases failed
    exact ⟨⟨_, rfl⟩, rfl⟩
  | _ => exact h.elim

end Value
end Flotilla
