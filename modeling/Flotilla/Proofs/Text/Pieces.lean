import Flotilla.Text.Blank

namespace Flotilla.Text

theorem isDigit_of_mem_toDigits {n : Nat} {c : Char} (member : c ∈ Nat.toDigits 10 n) : c.isDigit :=
  Nat.isDigit_of_mem_toDigits (by decide) (by decide) member

theorem notMem_toString {c : Char} (h : ¬ c.isDigit) (n : Nat) : c ∉ (toString n).toList := by
  intro mem
  have digits : c ∈ Nat.toDigits 10 n := by simpa [toString, Nat.toList_repr] using mem
  exact h (isDigit_of_mem_toDigits digits)

theorem toString_inj {m n : Nat} (h : toString m = toString n) : m = n := by
  have digits : Nat.toDigits 10 m = Nat.toDigits 10 n := by
    rw [← Nat.toList_repr, ← Nat.toList_repr]
    exact congrArg String.toList h
  rw [← Nat.ofDigitChars_ten_toDigits (n := m), digits, Nat.ofDigitChars_ten_toDigits]

theorem head?_toDigits {n : Nat} (positive : 0 < n) : (Nat.toDigits 10 n).head? ≠ some '0' := by
  induction n using Nat.strongRecOn with
  | ind n ih =>
    rcases Nat.lt_or_ge n 10 with single | more
    · simpa [Nat.toDigits_of_lt_base single] using Nat.ne_of_gt positive
    · have above := ih (n / 10) (Nat.div_lt_self positive (by decide)) (by omega)
      rw [Nat.toDigits_of_base_le (by decide) more]
      cases front : Nat.toDigits 10 (n / 10) with
      | nil => exact absurd front Nat.toDigits_ne_nil
      | cons c ds => simpa [front] using above

theorem toDigits_cases (n : Nat) : ∃ c ds, Nat.toDigits 10 n = c :: ds ∧ c.isDigit ∧
    (c = '0' → ds = []) := by
  cases written : Nat.toDigits 10 n with
  | nil => exact absurd written Nat.toDigits_ne_nil
  | cons c ds =>
    refine ⟨c, ds, rfl, ?_, ?_⟩
    · exact isDigit_of_mem_toDigits (n := n) (by simp [written])
    · rintro rfl
      rcases n.eq_zero_or_pos with rfl | positive
      · exact (List.cons.inj (written.symm.trans (Nat.toDigits_zero 10))).2
      · exact absurd (by rw [written]; rfl) (head?_toDigits positive)

theorem notMem_toString_int {c : Char} (h : ¬ c.isDigit) (minus : c ≠ '-') (i : Int) :
    c ∉ (toString i).toList := by
  cases i with
  | ofNat n => exact notMem_toString h n
  | negSucc n =>
    have written : (toString (Int.negSucc n)).toList = '-' :: (toString (n + 1)).toList := by
      simp [toString, Int.repr]
    rw [written, List.mem_cons, not_or]
    exact ⟨minus, notMem_toString h (n + 1)⟩

theorem toString_int_inj {i j : Int} (h : toString i = toString j) : i = j := by
  have signed (m n : Nat) : toString (Int.ofNat m) ≠ toString (Int.negSucc n) := by
    intro same
    refine notMem_toString (c := '-') (by decide) m ?_
    change '-' ∈ (toString (Int.ofNat m)).toList
    rw [same]
    simp [toString, Int.repr]
  cases i <;> cases j
  case ofNat.ofNat m n => exact congrArg Int.ofNat (toString_inj h)
  case ofNat.negSucc m n => exact absurd h (signed m n)
  case negSucc.ofNat m n => exact absurd h.symm (signed n m)
  case negSucc.negSucc m n =>
    have written : toString (m + 1) = toString (n + 1) := by
      have := congrArg String.toList h
      simpa [toString, Int.repr, ← String.toList_inj] using this
    rw [Nat.succ.inj (toString_inj written)]

theorem takeWhile_append {sep : Char} {cs : List Char} (h : sep ∉ cs) (r : List Char) :
    (cs ++ sep :: r).takeWhile (· != sep) = cs := by
  have others : ∀ c ∈ cs, c != sep := by
    intro c hc
    simpa using fun same : c = sep => h (same ▸ hc)
  rw [List.takeWhile_append_of_pos others]
  simp

theorem splitLast_eq {sep : Char} {s a b : String} (parts : s.toList = a.toList ++ sep :: b.toList)
    (last : sep ∉ b.toList) : splitLast sep s = some (a, b) := by
  have after : (s.toList.reverse.takeWhile (· != sep)).reverse = b.toList := by
    have reversed : s.toList.reverse = b.toList.reverse ++ sep :: a.toList.reverse := by simp [parts]
    rw [reversed, takeWhile_append (by simpa using last), List.reverse_reverse]
  have start : s.toList.length - b.toList.length - 1 = a.toList.length := by
    simp only [parts, List.length_append, List.length_cons]
    omega
  unfold splitLast
  simp only [after, start]
  simp [parts]

theorem splitFirst_eq {sep : Char} {s a b : String} (parts : s.toList = a.toList ++ sep :: b.toList)
    (first : sep ∉ a.toList) : splitFirst sep s = some (a, b) := by
  have before : s.toList.takeWhile (· != sep) = a.toList := by rw [parts, takeWhile_append first]
  unfold splitFirst
  simp only [before]
  simp [parts]

theorem getLast?_dropTrailing (c : Char) (s : String) :
    (dropTrailing c s).toList.getLast? ≠ some c := by
  rw [dropTrailing, String.toList_ofList, List.getLast?_reverse]
  intro first
  have := List.head?_dropWhile_not (· == c) s.toList.reverse
  rw [first] at this
  simp at this

theorem dropTrailing_of_ends {c : Char} {s : String} (h : s.toList.getLast? ≠ some c) :
    dropTrailing c s = s := by
  rw [dropTrailing]
  cases reversed : s.toList.reverse with
  | nil => simp_all
  | cons x r =>
    have other : (x == c) = false := beq_eq_false_iff_ne.mpr fun same => h (by
      rw [← List.head?_reverse, reversed, same, List.head?_cons])
    rw [List.dropWhile_cons, other, if_neg Bool.false_ne_true, ← reversed, List.reverse_reverse,
      String.ofList_toList]

theorem mem_dropTrailing {c x : Char} {s : String} (h : x ∈ (dropTrailing c s).toList) :
    x ∈ s.toList := by
  rw [dropTrailing, String.toList_ofList, List.mem_reverse] at h
  exact List.mem_reverse.mp ((List.dropWhile_sublist _).subset h)

theorem dropTrailing_eq_empty_iff {c : Char} {s : String} :
    dropTrailing c s = "" ↔ ∀ x ∈ s.toList, x = c := by
  have nil : ∀ cs : List Char, cs.dropWhile (· == c) = [] ↔ ∀ x ∈ cs, x = c := by
    intro cs
    induction cs with
    | nil => simp
    | cons x r ih => by_cases same : x = c <;> simp [same, ih]
  rw [dropTrailing, ← String.toList_eq_nil_iff, String.toList_ofList, List.reverse_eq_nil_iff, nil]
  simp

theorem splitLast_of_notMem {sep : Char} {s : String} (h : sep ∉ s.toList) :
    splitLast sep s = none := by
  rw [splitLast, if_neg (by simpa using h)]

theorem splitLast_of_mem {sep : Char} {s : String} (h : sep ∈ s.toList) :
    ∃ a b : String, splitLast sep s = some (a, b) ∧ s.toList = a.toList ++ sep :: b.toList ∧
      sep ∉ b.toList := by
  obtain ⟨after, before, reversed, last⟩ :=
    List.eq_append_cons_of_mem (List.mem_reverse.mpr h)
  have parts : s.toList = before.reverse ++ sep :: after.reverse := by
    rw [← List.reverse_reverse s.toList, reversed]
    simp
  refine ⟨.ofList before.reverse, .ofList after.reverse, ?_, ?_, ?_⟩
  · exact splitLast_eq (by simpa using parts) (by simpa using last)
  · simpa using parts
  · simpa using last

theorem splitChars_of_notMem {sep : Char} {cs : List Char} (h : sep ∉ cs) :
    splitChars sep cs = [cs] := by
  induction cs with
  | nil => rfl
  | cons c r ih =>
    rw [List.mem_cons, not_or] at h
    simp [splitChars, Ne.symm h.1, ih h.2]

theorem mem_of_mem_splitChars {sep c : Char} {cs piece : List Char} (h : piece ∈ splitChars sep cs)
    (inside : c ∈ piece) : c ∈ cs ∧ c ≠ sep := by
  induction cs generalizing piece with
  | nil =>
    obtain rfl := List.mem_singleton.mp h
    cases inside
  | cons x r ih =>
    rw [splitChars] at h
    split at h
    · rcases List.mem_cons.mp h with rfl | later
      · cases inside
      · exact (ih later inside).imp_left (List.mem_cons_of_mem x)
    · next other =>
      cases pieces : splitChars sep r with
      | nil => exact absurd pieces (splitChars_ne_nil sep r)
      | cons p ps =>
        rw [pieces] at h ih
        rcases List.mem_cons.mp h with rfl | later
        · rcases List.mem_cons.mp inside with rfl | below
          · exact ⟨List.mem_cons_self, by simpa using other⟩
          · exact (ih List.mem_cons_self below).imp_left (List.mem_cons_of_mem x)
        · exact (ih (List.mem_cons_of_mem p later) inside).imp_left (List.mem_cons_of_mem x)

theorem splitChars_append (sep : Char) (cs r : List Char) :
    splitChars sep (cs ++ sep :: r) = splitChars sep cs ++ splitChars sep r := by
  induction cs with
  | nil => simp [splitChars]
  | cons c cs ih =>
    rw [List.cons_append, splitChars, splitChars, ih]
    split
    · rfl
    · cases pieces : splitChars sep cs with
      | nil => exact absurd pieces (splitChars_ne_nil sep cs)
      | cons p ps => rfl

theorem mem_getLast?_splitChars {sep c : Char} (other : c ≠ sep) (cs : List Char) {r : List Char}
    (last : sep ∉ r) : ∃ p ∈ (splitChars sep (cs ++ c :: r)).getLast?, c ∈ p := by
  induction cs with
  | nil =>
    have single : sep ∉ c :: r := by simp [last, other.symm]
    exact ⟨c :: r, by simp [splitChars_of_notMem single], by simp⟩
  | cons x cs ih =>
    obtain ⟨p, final, member⟩ := ih
    rw [List.cons_append, splitChars]
    cases pieces : splitChars sep (cs ++ c :: r) with
    | nil => exact absurd pieces (splitChars_ne_nil sep _)
    | cons q qs =>
      rw [pieces] at final
      split
      · exact ⟨p, by simpa using final, member⟩
      · cases qs with
        | nil =>
          obtain rfl : q = p := by simpa using final
          exact ⟨x :: q, by simp, List.mem_cons_of_mem _ member⟩
        | cons q' qs => exact ⟨p, by simpa using final, member⟩

def countIn (x : Char) (pieces : List String) : Nat := (pieces.flatMap String.toList).count x

theorem countIn_reverse (x : Char) (pieces : List String) : countIn x pieces.reverse = countIn x pieces :=
  ((List.reverse_perm pieces).flatMap_right _).count_eq x

theorem countIn_splitOn {sep x : Char} (h : x ≠ sep) (s : String) :
    countIn x (splitOn sep s) = s.toList.count x := by
  have chars (cs : List Char) : (splitChars sep cs).flatten.count x = cs.count x := by
    induction cs with
    | nil => rfl
    | cons c r ih =>
      by_cases separates : c = sep
      · simp [splitChars, separates, ih, Ne.symm h]
      · cases pieces : splitChars sep r with
        | nil => exact absurd pieces (splitChars_ne_nil sep r)
        | cons p ps =>
          rw [pieces] at ih
          simpa [splitChars, separates, pieces, List.count_cons] using ih
  rw [← chars s.toList, countIn, splitOn, List.flatMap_map]
  simp [List.flatMap_def]

theorem append_lt_append_iff (a b c : List Char) : a ++ b < a ++ c ↔ b < c := by
  induction a with
  | nil => rfl
  | cons x r ih =>
    rw [List.cons_append, List.cons_append, List.cons_lt_cons_iff, ih]
    exact ⟨fun h => h.elim (fun less => absurd less (Char.lt_irrefl x)) And.right, fun h => .inr ⟨rfl, h⟩⟩

end Flotilla.Text
