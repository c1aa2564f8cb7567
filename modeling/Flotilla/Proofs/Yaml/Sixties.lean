import Flotilla.Proofs.Text.Pattern
import Flotilla.Proofs.Text.Pieces
import Flotilla.Proofs.Yaml.Word

namespace Flotilla.Yaml
open Text Pattern

def twoPlaces (h p : Nat) : List Char := Nat.toDigits 10 h ++ ':' :: Nat.toDigits 10 p

section
variable {c : Char}

theorem isDigit_of_range (low : '0' ≤ c) (high : c ≤ '9') : c.isDigit := by
  rw [Char.isDigit, Bool.and_eq_true, decide_eq_true_iff, decide_eq_true_iff]
  exact ⟨low, high⟩

variable (digit : c.isDigit)
include digit

theorem toNat_of_isDigit : 48 ≤ c.toNat ∧ c.toNat ≤ 57 := by
  rw [Char.isDigit, Bool.and_eq_true, decide_eq_true_iff, decide_eq_true_iff] at digit
  exact digit

theorem isVisible_of_isDigit : isVisible c := by
  have bounds := toNat_of_isDigit digit
  rw [isVisible, Bool.and_eq_true, decide_eq_true_iff, decide_eq_true_iff]
  omega

theorem matches_digit : Matches Pattern.digit [c] := by
  have bounds := toNat_of_isDigit digit
  exact .range bounds.1 bounds.2

theorem matches_leading (nonzero : c ≠ '0') : Matches (range '1' '9') [c] := by
  have bounds := toNat_of_isDigit digit
  have above : c.toNat ≠ 48 := fun same => nonzero (Char.toNat_inj.mp same)
  refine .range ?_ bounds.2
  change 49 ≤ c.toNat
  omega

theorem notMem_startIndicators : startIndicators.contains c = false := by
  have others : startIndicators.all (! ·.isDigit) := by decide
  rw [Bool.eq_false_iff, ne_eq, List.contains_iff_mem]
  intro member
  simpa [digit] using List.all_eq_true.mp others c member

theorem ne_of_isDigit {d : Char} (other : ¬ d.isDigit) : c ≠ d := by
  rintro rfl
  exact other digit

theorem digitValue_of_isDigit : digitValue c + 48 = c.toNat := by
  have bounds := toNat_of_isDigit digit
  rw [digitValue, if_pos digit]
  change c.toNat - 48 + 48 = c.toNat
  omega

end

theorem ofDigits_toDigits (n : Nat) : ofDigits 10 (Nat.toDigits 10 n) = n := by
  have same : ofDigits 10 (Nat.toDigits 10 n) = Nat.ofDigitChars 10 (Nat.toDigits 10 n) 0 := by
    refine List.foldl_ext _ _ _ fun a c member => ?_
    rw [digitValue, if_pos (isDigit_of_mem_toDigits member)]
  rw [same, Nat.ofDigitChars_ten_toDigits]

theorem colon_notMem_toDigits (n : Nat) : ':' ∉ Nat.toDigits 10 n := fun member =>
  absurd (isDigit_of_mem_toDigits member) (by decide)

section
variable {h p : Nat}

theorem mem_twoPlaces {c : Char} (member : c ∈ twoPlaces h p) : c.isDigit ∨ c = ':' := by
  rw [twoPlaces, List.mem_append, List.mem_cons] at member
  obtain member | same | member := member
  · exact .inl (isDigit_of_mem_toDigits member)
  · exact .inr same
  · exact .inl (isDigit_of_mem_toDigits member)

def place : Pattern := row [char ':', optional (range '0' '5'), Pattern.digit]

theorem matches_place_iff : Matches place (':' :: Nat.toDigits 10 p) ↔ p < 60 := by
  constructor
  · intro matched
    have value := ofDigits_toDigits p
    obtain ⟨_, ds, whole, colon, digits⟩ := (matches_row_cons_iff _).mp matched
    obtain rfl := matches_char_iff.mp colon
    obtain ⟨tens, _, split, upper, lower⟩ := (matches_row_cons_iff _).mp digits
    obtain ⟨e, rfl, low, high⟩ := matches_range_iff.mp lower
    obtain rfl : Nat.toDigits 10 p = ds := (List.cons.inj whole).2
    have ones := digitValue_of_isDigit (isDigit_of_range low high)
    have below : e.toNat ≤ 57 := high
    rw [split] at value
    rcases matches_alt_iff.mp upper with none | some
    · obtain rfl := matches_nothing_iff.mp none
      change 10 * 0 + digitValue e = p at value
      omega
    · obtain ⟨t, rfl, low', high'⟩ := matches_range_iff.mp some
      have tens := digitValue_of_isDigit (isDigit_of_range low' (Char.le_trans high' (by decide)))
      have below' : t.toNat ≤ 53 := high'
      change 10 * (10 * 0 + digitValue t) + digitValue e = p at value
      omega
  · intro small
    have all : ∀ p < 60, place.matchesAll (':' :: Nat.toDigits 10 p) := by decide
    exact matchesAll_iff.mp (all p small)

theorem matches_integer_of_lt (positive : 0 < h) (small : p < 60) :
    Matches integer (twoPlaces h p) := by
  obtain ⟨c, r, front, digit, -⟩ := toDigits_cases h
  have nonzero : c ≠ '0' := by
    rintro rfl
    exact head?_toDigits positive (by rw [front]; rfl)
  have digits : Matches Yaml.digits r := by
    refine matches_many_of_forall fun d member => .first (matches_digit ?_)
    exact isDigit_of_mem_toDigits (n := h) (by rw [front]; exact List.mem_cons_of_mem c member)
  have last : Matches sixties (':' :: Nat.toDigits 10 p) := by
    have once := (matches_place_iff.mpr small).seq (.stop (p := place))
    rwa [List.append_nil] at once
  rw [integer, matches_oneOf_iff, twoPlaces, front]
  refine ⟨_, List.mem_of_getElem? (i := 4) rfl, ?_⟩
  have unsigned : Matches sign [] := .first .nothing
  exact unsigned.seq ((matches_leading digit nonzero).seq (digits.seq last))

/-- Places come behind a colon each, so where there is one colon only there is one place only. -/
theorem matches_sixties_cases {cs : List Char} (matched : Matches sixties cs) :
    ∃ ds, cs = ':' :: ds ∧ (':' ∉ ds → Matches place cs) := by
  obtain ⟨first, more, rfl, one, others⟩ := matches_seq_iff.mp matched
  obtain ⟨_, ds, rfl, colon, -⟩ := (matches_row_cons_iff _).mp one
  obtain rfl := matches_char_iff.mp colon
  refine ⟨ds ++ more, rfl, fun single => ?_⟩
  cases more with
  | nil => exact (List.append_nil ([':'] ++ ds)).symm ▸ one
  | cons c r =>
    obtain ⟨y, z, rfl, next, -⟩ := matches_many_cons_iff.mp others
    have second : ':' ∈ c :: y := mem_of_requires next (by decide)
    exact absurd (List.mem_append_right ds (List.mem_append_left z second)) single

theorem lt_of_matches_integer (matched : Matches integer (twoPlaces h p)) : 0 < h ∧ p < 60 := by
  have colon : ':' ∈ twoPlaces h p := by simp [twoPlaces]
  obtain ⟨q, member, matched⟩ := (matches_oneOf_iff _).mp matched
  simp only [List.mem_cons, List.not_mem_nil, or_false] at member
  obtain rfl | rfl | rfl | rfl | rfl := member
  case inr.inr.inr.inr =>
    obtain ⟨s, _, whole, -, unsigned⟩ := (matches_row_cons_iff _).mp matched
    obtain ⟨_, _, rfl, leading, behind⟩ := (matches_row_cons_iff _).mp unsigned
    obtain ⟨ds, _, rfl, -, places⟩ := (matches_row_cons_iff _).mp behind
    obtain ⟨d, rfl, low, -⟩ := matches_range_iff.mp leading
    obtain ⟨last, rfl, single⟩ := matches_sixties_cases places
    have parts : Nat.toDigits 10 h ++ ':' :: Nat.toDigits 10 p = (s ++ d :: ds) ++ ':' :: last := by
      simpa [twoPlaces] using whole
    obtain ⟨left, -, rfl⟩ :=
      (List.append_cons_inj_of_notMem (colon_notMem_toDigits h) (colon_notMem_toDigits p)).mp parts
    refine ⟨h.pos_of_ne_zero ?_, matches_place_iff.mp (single (colon_notMem_toDigits p))⟩
    rintro rfl
    have zero : d ∈ ['0'] := by
      rw [← Nat.toDigits_zero 10, left]
      exact List.mem_append_right s List.mem_cons_self
    obtain rfl := List.mem_singleton.mp zero
    exact absurd low (by decide)
  -- The other ways to write an integer have no colon.
  all_goals exact absurd colon (notMem_of_not_mentions matched (by decide))

theorem kind?_twoPlaces (h p : Nat) :
    kind? (twoPlaces h p) = if 0 < h ∧ p < 60 then Option.some .integer else none := by
  have colon : ':' ∈ twoPlaces h p := by simp [twoPlaces]
  have notMentioned {q : Pattern} (never : q.mentions ':' = false) :
      q.matchesAll (twoPlaces h p) = false := by
    rw [Bool.eq_false_iff, ne_eq, matchesAll_iff]
    exact fun matched => notMem_of_not_mentions matched never colon
  have notRequired {q : Pattern} {c : Char} (needed : q.requires c) (other : ¬ (c.isDigit ∨ c = ':')) :
      q.matchesAll (twoPlaces h p) = false := by
    rw [Bool.eq_false_iff, ne_eq, matchesAll_iff]
    exact fun matched => other (mem_twoPlaces (mem_of_requires matched needed))
  have notTruth : truthValue.matchesAll (twoPlaces h p) = false := notMentioned (by decide)
  have notNull : nullValue.matchesAll (twoPlaces h p) = false := notMentioned (by decide)
  have notMerge : mergeKey.matchesAll (twoPlaces h p) = false := notMentioned (by decide)
  have notValue : valueKey.matchesAll (twoPlaces h p) = false := notMentioned (by decide)
  have notDouble : double.matchesAll (twoPlaces h p) = false :=
    notRequired (c := '.') (by decide) (by decide)
  have notTime : timestamp.matchesAll (twoPlaces h p) = false :=
    notRequired (c := '-') (by decide) (by decide)
  have isInteger : integer.matchesAll (twoPlaces h p) = decide (0 < h ∧ p < 60) := by
    rw [Bool.eq_iff_iff, matchesAll_iff, decide_eq_true_iff]
    exact ⟨lt_of_matches_integer, fun bounds => matches_integer_of_lt bounds.1 bounds.2⟩
  simp only [kind?, kinds, List.find?_cons, notTruth, notNull, notMerge, notValue, notDouble, notTime,
    isInteger]
  split_ifs with bounds <;> simp [bounds]

theorem ofSixties_twoPlaces (h p : Nat) : ofSixties (twoPlaces h p) = 60 * h + p := by
  rw [ofSixties, twoPlaces, splitChars_append, splitChars_of_notMem (colon_notMem_toDigits h),
    splitChars_of_notMem (colon_notMem_toDigits p)]
  simp [ofDigits_toDigits]

theorem readInteger_twoPlaces (positive : 0 < h) (p : Nat) :
    readInteger (twoPlaces h p) = (60 * h + p : Nat) := by
  have solid : ∀ c ∈ twoPlaces h p, c != '_' := by
    intro c member
    rw [bne_iff_ne]
    rintro rfl
    exact absurd (mem_twoPlaces member) (by decide)
  have value := ofSixties_twoPlaces h p
  obtain ⟨c, r, front, digit, -⟩ := toDigits_cases h
  rw [readInteger, List.filter_eq_self.mpr solid]
  rw [twoPlaces, front, List.cons_append] at value ⊢
  split
  · next minus => exact absurd (List.cons.inj minus).1 (ne_of_isDigit digit (by decide))
  · next plus => exact absurd (List.cons.inj plus).1 (ne_of_isDigit digit (by decide))
  · rw [magnitude, value]
    all_goals
      intro _ zero
      obtain rfl := (List.cons.inj zero).1
      exact head?_toDigits positive (by rw [front]; rfl)

theorem hasInnerIndicator_digits {cs : List Char} (digits : ∀ c ∈ cs, c.isDigit) (r : List Char) :
    hasInnerIndicator false (cs ++ r) = hasInnerIndicator false r := by
  induction cs with
  | nil => rfl
  | cons c cs ih =>
    obtain ⟨here, others⟩ := List.forall_mem_cons.mp digits
    have colon : (c == ':') = false := beq_eq_false_iff_ne.mpr (ne_of_isDigit here (by decide))
    rw [List.cons_append, hasInnerIndicator, colon, isGap_of_isVisible (isVisible_of_isDigit here), ih others]
    simp

theorem hasIndicator_twoPlaces (h p : Nat) : hasIndicator (twoPlaces h p) = false := by
  obtain ⟨c, r, front, digit, -⟩ := toDigits_cases h
  have gap := isGap_of_isVisible (isVisible_of_isDigit digit)
  have first : hasInnerIndicator false (r ++ ':' :: Nat.toDigits 10 p) =
      hasInnerIndicator false (':' :: Nat.toDigits 10 p) := by
    refine hasInnerIndicator_digits (fun d member => ?_) _
    exact isDigit_of_mem_toDigits (n := h) (by rw [front]; exact List.mem_cons_of_mem c member)
  have second : hasInnerIndicator false (':' :: Nat.toDigits 10 p) = false := by
    have noGap : gapNext (Nat.toDigits 10 p) = false := by
      obtain ⟨d, ds, written, digit, -⟩ := toDigits_cases p
      rw [written]
      exact isGap_of_isVisible (isVisible_of_isDigit digit)
    have last := hasInnerIndicator_digits (fun _ member => isDigit_of_mem_toDigits (n := p) member) []
    have colon : isGap ':' = false := by decide
    rw [List.append_nil] at last
    simp [hasInnerIndicator, noGap, colon, last]
  have others : c ≠ '-' ∧ c ≠ '.' ∧ c ≠ '?' ∧ c ≠ ':' := by
    refine ⟨?_, ?_, ?_, ?_⟩ <;> exact ne_of_isDigit digit (by decide)
  rw [twoPlaces, front, List.cons_append, hasIndicator, notMem_startIndicators digit, gap, first, second]
  simp [others]

/-- Two numbers with a colon between them are read as one where the second is below sixty and the first
is positive, and as a text otherwise. -/
theorem readScalar_twoPlaces (h p : Nat) : readScalar (twoPlaces h p) = Option.some
    (if 0 < h ∧ p < 60 then .num (.int (60 * h + p : Nat)) else .text (String.ofList (twoPlaces h p))) := by
  have plain := hasIndicator_twoPlaces h p
  have value : readScalar (twoPlaces h p) = plainValue? (twoPlaces h p) := by
    obtain ⟨c, r, front, digit, -⟩ := toDigits_cases h
    rw [twoPlaces, front, List.cons_append] at plain ⊢
    rw [readScalar, plain, if_neg Bool.false_ne_true]
    intro _ quote
    exact absurd (List.cons.inj quote).1 (ne_of_isDigit digit (by decide))
  rw [value, plainValue?, kind?_twoPlaces]
  split_ifs with bounds
  · rw [readInteger_twoPlaces bounds.1 p]
  · rfl

example : readScalar "8080:30".toList = Option.some (.num (.int 484830)) := by decide +kernel

end

end Flotilla.Yaml
