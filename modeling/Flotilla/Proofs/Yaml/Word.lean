import Flotilla.Proofs.Yaml.Reader
import Flotilla.Yaml.Block

namespace Flotilla.Yaml

def isVisible (c : Char) : Bool := 33 ≤ c.toNat && c.toNat ≤ 126

structure IsWord (cs : List Char) : Prop where
  ne_nil : cs ≠ []
  visible : ∀ c ∈ cs, isVisible c

instance (cs : List Char) : Decidable (IsWord cs) :=
  decidable_of_iff (cs ≠ [] ∧ cs.all isVisible)
    ⟨fun h => ⟨h.1, List.all_eq_true.mp h.2⟩, fun h => ⟨h.1, List.all_eq_true.mpr h.2⟩⟩

theorem IsWord.append {cs ds : List Char} (word : IsWord cs) (visible : ∀ c ∈ ds, isVisible c) :
    IsWord (cs ++ ds) := by
  refine ⟨List.append_ne_nil_of_left_ne_nil word.ne_nil ds, fun c member => ?_⟩
  exact (List.mem_append.mp member).elim (word.visible c) (visible c)

def spelled (cs : List Char) : List Char :=
  if (kind? cs).isNone && allowsPlain cs then cs else '\'' :: (doubleQuotes cs ++ ['\''])

section
variable {c : Char} (h : isVisible c)
include h

theorem isBreak_of_isVisible : isBreak c = false := by
  have bounds : 33 ≤ c.toNat ∧ c.toNat ≤ 126 := by simpa [isVisible] using h
  have other : c ≠ '\n' := by
    rintro rfl
    exact absurd h (by decide)
  simp only [isBreak, Bool.or_eq_false_iff, beq_eq_false_iff_ne]
  exact ⟨⟨⟨other, by omega⟩, by omega⟩, by omega⟩

theorem isGap_of_isVisible : isGap c = false := by
  simp only [isGap, isBreak_of_isVisible h, Bool.false_or, Bool.or_eq_false_iff, beq_eq_false_iff_ne]
  refine ⟨⟨⟨?_, ?_⟩, ?_⟩, ?_⟩ <;> rintro rfl <;> exact absurd h (by decide)

theorem isSpaceChar_of_isVisible : isSpaceChar c = false := by
  rw [isSpaceChar, beq_eq_false_iff_ne]
  rintro rfl
  exact absurd h (by decide)

theorem isSpecial_of_isVisible : isSpecial c = false := by
  have bounds : 33 ≤ c.toNat ∧ c.toNat ≤ 126 := by simpa [isVisible] using h
  have printable : 32 ≤ c.toNat ∧ c.toNat ≤ 126 := by omega
  simp [isSpecial, printable]

end

theorem hasPair_eq_false {p q : Char → Bool} {cs : List Char} (h : ∀ c ∈ cs, p c = false) :
    hasPair p q cs = false := by
  induction cs with
  | nil => rfl
  | cons a r ih =>
    cases r with
    | nil => rfl
    | cons b r =>
      rw [hasPair, h a List.mem_cons_self, ih fun c member => h c (List.mem_cons_of_mem a member)]
      rfl

namespace IsWord
variable {cs : List Char} (word : IsWord cs)
include word

theorem any_eq_false {p : Char → Bool} (h : ∀ c, isVisible c → p c = false) : cs.any p = false :=
  List.any_eq_false.mpr fun c member => Bool.eq_false_iff.mp (h c (word.visible c member))

theorem textStyle_eq (isKey : Bool) :
    textStyle isKey cs = if (kind? cs).isNone && allowsPlain cs then .plain else .single := by
  have single : allowsSingle cs = true := by
    have noBreak : ∀ c ∈ cs, isBreak c = false := fun c member =>
      isBreak_of_isVisible (word.visible c member)
    have noSpace : ∀ c ∈ cs, isSpaceChar c = false := fun c member =>
      isSpaceChar_of_isVisible (word.visible c member)
    rw [allowsSingle, hasPair_eq_false noBreak, hasPair_eq_false noSpace,
      word.any_eq_false fun _ => isSpecial_of_isVisible]
    rfl
  have oneLine : isMultiline cs = false := word.any_eq_false fun _ => isBreak_of_isVisible
  have given : cs.isEmpty = false := List.isEmpty_eq_false_iff.mpr word.ne_nil
  simp only [textStyle, single, oneLine, given, Bool.and_false, Bool.not_false, Bool.and_true, if_true]

theorem runs_eq : runs cs = [.word cs] := by
  have one : ∀ {cs : List Char}, cs ≠ [] → (∀ c ∈ cs, isVisible c) → runs cs = [.word cs] := by
    intro cs given visible
    induction cs with
    | nil => exact absurd rfl given
    | cons c r ih =>
      obtain ⟨here, others⟩ := List.forall_mem_cons.mp visible
      have noSpace : (c == ' ') = false := isSpaceChar_of_isVisible here
      have noBreak := isBreak_of_isVisible here
      cases r with
      | nil => simp [runs, noSpace, noBreak]
      | cons d r =>
        rw [runs, ih (List.cons_ne_nil d r) others]
        simp [noSpace, noBreak]
  exact one word.ne_nil word.visible

theorem writeText_eq (isKey : Bool) (indent : Nat) (p : Pen) :
    writeText isKey indent cs p = p.spaced (spelled cs) := by
  rw [writeText, word.textStyle_eq isKey, spelled]
  split_ifs
  · simp only [writePlain, word.runs_eq, List.foldl_cons, List.foldl_nil, writePlainRun]
    cases gap : p.afterGap
    all_goals simp [Pen.spaced, Pen.write, Pen.used, gap]
    omega
  · simp only [writeSingle, word.runs_eq, writeSingleRuns]
    cases gap : p.afterGap <;> simp [Pen.spaced, Pen.attached, Pen.write, Pen.used, gap] <;> omega

theorem spelled_ne_nil : spelled cs ≠ [] := by
  rw [spelled]
  split
  · exact word.ne_nil
  · exact List.cons_ne_nil _ _

theorem visible_spelled : ∀ c ∈ spelled cs, isVisible c := by
  have quote : isVisible '\'' := by decide
  intro c member
  rw [spelled] at member
  split at member
  · exact word.visible c member
  · simp only [List.mem_cons, List.mem_append, doubleQuotes, List.mem_flatMap, List.not_mem_nil,
      or_false] at member
    obtain rfl | ⟨d, inside, same⟩ | rfl := member
    · exact quote
    · split at same
      · obtain rfl : c = d := by simpa using same
        exact word.visible c inside
      · obtain rfl := List.mem_singleton.mp same
        exact word.visible c inside
    · exact quote

theorem isWord_spelled : IsWord (spelled cs) := ⟨word.spelled_ne_nil, word.visible_spelled⟩

end IsWord

theorem takeQuoted_doubleQuotes (cs : List Char) {rest : List Char} (other : rest.head? ≠ some '\'') :
    takeQuoted (doubleQuotes cs ++ '\'' :: rest) = some (cs, rest) := by
  induction cs with
  | nil =>
    change takeQuoted ('\'' :: rest) = _
    cases rest with
    | nil => rfl
    | cons d r =>
      rw [takeQuoted]
      rintro r ⟨⟩
      exact other rfl
  | cons c cs ih =>
    by_cases quote : c = '\''
    · subst quote
      have written : doubleQuotes ('\'' :: cs) ++ '\'' :: rest =
          '\'' :: '\'' :: (doubleQuotes cs ++ '\'' :: rest) := rfl
      rw [written, takeQuoted, ih]
      rfl
    · have written : doubleQuotes (c :: cs) ++ '\'' :: rest =
          c :: (doubleQuotes cs ++ '\'' :: rest) := by simp [doubleQuotes, quote]
      rw [written, takeQuoted, ih]
      · rfl
      · rintro r rfl
        exact absurd rfl quote
      · exact quote

theorem cutAtColon_of_plain {cs : List Char} {afterGap : Bool}
    (plain : hasInnerIndicator afterGap cs = false) : cutAtColon cs = none := by
  induction cs generalizing afterGap with
  | nil => rfl
  | cons c r ih =>
    simp only [hasInnerIndicator, Bool.or_eq_false_iff] at plain
    rw [cutAtColon, plain.1.1, ih plain.2]
    rfl

theorem cutAtColon_append {cs rest : List Char} {afterGap : Bool}
    (plain : hasInnerIndicator afterGap cs = false) (gap : gapNext rest) :
    cutAtColon (cs ++ ':' :: rest) = some (cs, rest) := by
  induction cs generalizing afterGap with
  | nil => simp [cutAtColon, gap]
  | cons c r ih =>
    simp only [hasInnerIndicator, Bool.or_eq_false_iff] at plain
    have inside : (c == ':' && gapNext (r ++ ':' :: rest)) = false := by
      cases r with
      | nil =>
        have colon : isGap ':' = false := by decide
        simp [gapNext, colon]
      | cons d r => exact plain.1.1
    rw [List.cons_append, cutAtColon, inside, ih plain.2]
    rfl

theorem hasInnerIndicator_of_plain {c : Char} {r : List Char} (plain : hasIndicator (c :: r) = false) :
    c ≠ '\'' ∧ (c = '-' → gapNext r = false) ∧ ∃ afterGap, hasInnerIndicator afterGap (c :: r) = false := by
  simp only [hasIndicator, Bool.or_eq_false_iff] at plain
  obtain ⟨-, ⟨start, mark⟩, inner⟩ := plain
  refine ⟨?_, ?_, false, ?_⟩
  · rintro rfl
    exact absurd start (by decide)
  · rintro rfl
    simpa using mark
  · have colon : (c == ':' && gapNext r) = false := by
      by_cases same : c = ':'
      · simpa [same] using mark
      · simp [same]
    rw [hasInnerIndicator, colon, inner]
    simp

section
variable {cs : List Char}

theorem spelled_cases (cs : List Char) : spelled cs = cs ∧ kind? cs = none ∧ hasIndicator cs = false ∨
    spelled cs = '\'' :: (doubleQuotes cs ++ ['\'']) := by
  rw [spelled]
  split_ifs with plain
  · obtain ⟨ofText, allowed⟩ := Bool.and_eq_true_iff.mp plain
    simp only [allowsPlain, Bool.not_eq_true', Bool.or_eq_false_iff] at allowed
    exact .inl ⟨rfl, Option.isNone_iff_eq_none.mp ofText, allowed.2⟩
  · exact .inr rfl

theorem takeQuoted_quoted (cs : List Char) : takeQuoted (doubleQuotes cs ++ ['\'']) = some (cs, []) :=
  takeQuoted_doubleQuotes cs (by simp)

theorem length_doubleQuotes_le (cs : List Char) : (doubleQuotes cs).length ≤ 2 * cs.length := by
  induction cs with
  | nil => exact Nat.le_refl 0
  | cons c r ih =>
    have one : (if c == '\'' then [c, c] else [c]).length ≤ 2 := by split <;> simp
    simp only [doubleQuotes, List.flatMap_cons, List.length_append, List.length_cons] at ih ⊢
    omega

namespace IsWord
variable (word : IsWord cs)
include word

theorem readScalar_spelled : readScalar (spelled cs) = some (.text (String.ofList cs)) := by
  rcases spelled_cases cs with ⟨spelled_eq, ofText, plain⟩ | quoted
  · rw [spelled_eq]
    obtain ⟨c, r, rfl⟩ := List.exists_cons_of_ne_nil word.ne_nil
    have start := (hasInnerIndicator_of_plain plain).1
    rw [readScalar, plain, if_neg Bool.false_ne_true, plainValue?, ofText]
    rintro r ⟨⟩
    exact start rfl
  · rw [quoted, readScalar, takeQuoted_quoted]

theorem readKey_spelled : readKey (spelled cs) = none := by
  have none : takeKey (spelled cs) = none := by
    rcases spelled_cases cs with ⟨spelled_eq, -, plain⟩ | quoted
    · rw [spelled_eq]
      obtain ⟨c, r, rfl⟩ := List.exists_cons_of_ne_nil word.ne_nil
      obtain ⟨start, -, _, inner⟩ := hasInnerIndicator_of_plain plain
      rw [takeKey, cutAtColon_of_plain inner]
      · rfl
      · rintro r ⟨⟩
        exact start rfl
    · rw [quoted, takeKey, takeQuoted_quoted]
      rfl
  rw [readKey, none]
  rfl

theorem takeKey_spelled {rest : List Char} (gap : gapNext rest) :
    takeKey (spelled cs ++ ':' :: rest) = some (String.ofList cs, rest) := by
  rcases spelled_cases cs with ⟨spelled_eq, -, plain⟩ | quoted
  · have read := word.readScalar_spelled
    rw [spelled_eq] at read ⊢
    have whole : cs.rdropWhile isSpaceChar = cs := by
      refine List.rdropWhile_eq_self_iff.mpr fun given => ?_
      rw [isSpaceChar_of_isVisible (word.visible _ (List.getLast_mem given))]
      exact Bool.false_ne_true
    obtain ⟨c, r, rfl⟩ := List.exists_cons_of_ne_nil word.ne_nil
    obtain ⟨start, -, _, inner⟩ := hasInnerIndicator_of_plain plain
    rw [takeKey, cutAtColon_append inner gap]
    · simp only [Option.bind_eq_bind, Option.bind_some, whole, read]
    · rintro r ⟨⟩
      exact start rfl
  · have written : spelled cs ++ ':' :: rest =
        '\'' :: (doubleQuotes cs ++ '\'' :: ':' :: rest) := by simp [quoted]
    have colon : cutAtColon (':' :: rest) = some ([], rest) := by simp [cutAtColon, gap]
    rw [written, takeKey, takeQuoted_doubleQuotes cs (by simp)]
    simp only [Option.bind_eq_bind, Option.bind_some, colon, List.all_nil, if_true]

theorem readKey_spelled_append {rest : List Char} (gap : gapNext rest) (short : cs.length < keyLimit) :
    readKey (spelled cs ++ ':' :: rest) = some (String.ofList cs, rest.dropWhile isSpaceChar) := by
  have within : (spelled cs).length ≤ keyReach := by
    have twice := length_doubleQuotes_le cs
    rw [keyLimit] at short
    rw [keyReach]
    rcases spelled_cases cs with ⟨spelled_eq, -, -⟩ | quoted
    · rw [spelled_eq]
      omega
    · simp only [quoted, List.length_cons, List.length_append, List.length_nil]
      omega
  have reached : (spelled cs ++ ':' :: rest).length ≤ rest.length + 1 + keyReach := by
    simp only [List.length_append, List.length_cons]
    omega
  rw [readKey, word.takeKey_spelled gap]
  simp only [Option.bind_eq_bind, Option.bind_some, if_pos reached]

theorem isItem_spelled (indent : Nat) (rest : List Char) :
    Line.isItem ⟨indent, spelled cs ++ rest⟩ = false := by
  rcases spelled_cases cs with ⟨spelled_eq, -, plain⟩ | quoted
  · rw [spelled_eq]
    obtain ⟨c, r, rfl⟩ := List.exists_cons_of_ne_nil word.ne_nil
    have mark := (hasInnerIndicator_of_plain plain).2.1
    by_cases dash : c = '-'
    · subst dash
      have inside := mark rfl
      cases r with
      | nil => exact absurd inside (by decide)
      | cons d r => exact inside
    · simp [Line.isItem, dash]
  · simp [Line.isItem, quoted]

end IsWord

end

end Flotilla.Yaml
