import Flotilla.Json.Quoted
import Mathlib.Tactic.SplitIfs

namespace Flotilla.Json

theorem hexValue?_hexDigit {n : Nat} (h : n < 16) : hexValue? (Text.hexDigit n) = some n := by
  have all : ∀ n < 16, hexValue? (Text.hexDigit n) = some n := by decide
  exact all n h

theorem unit?_hexDigits {u : Nat} (h : u < 0x10000) : ∃ a b c d,
    Text.hexDigits 4 u = [a, b, c, d] ∧ unit? a b c d = some u := by
  refine ⟨_, _, _, _, rfl, ?_⟩
  have last (n : Nat) := hexValue?_hexDigit (Nat.mod_lt n (by decide : 16 > 0))
  simp only [unit?, last, Option.bind_eq_bind, Option.bind_some]
  exact congrArg some (by omega)

/-- A character of the basic plane is a unit, and any other is a high unit and a low one. -/
theorem units_cases (c : Char) :
    (units c = [c.toNat] ∧ c.toNat < 0x10000 ∧ isHigh c.toNat = false ∧ isLow c.toNat = false) ∨
      ∃ high low, units c = [0xD800 + high, 0xDC00 + low] ∧ high < 0x400 ∧ low < 0x400 ∧
        0x10000 + high * 0x400 + low = c.toNat := by
  have valid : c.toNat < 0xD800 ∨ 0xDFFF < c.toNat ∧ c.toNat < 0x110000 := c.valid
  unfold units
  by_cases basic : c.toNat < 0x10000
  · refine .inl ⟨if_pos basic, basic, ?_, ?_⟩
    · simp [isHigh]
      omega
    · simp [isLow]
      omega
  · refine .inr ⟨_, _, if_neg basic, ?_, ?_, ?_⟩ <;> omega

theorem units_lt (c : Char) : ∀ u ∈ units c, u < 0x10000 := by
  rcases units_cases c with ⟨single, basic, -⟩ | ⟨high, low, pair, h, l, -⟩
  · simpa [single] using basic
  · simp only [pair, List.forall_mem_cons]
    exact ⟨by omega, by omega, nofun⟩

theorem decodeUnits_escapeUnits {us : List Nat} (h : ∀ u ∈ us, u < 0x10000) (r : List Char) :
    decodeUnits (us.flatMap escapeUnit ++ r) = (decodeUnits r).map fun x => (us ++ x.1, x.2) := by
  induction us with
  | nil => simp
  | cons u us ih =>
    obtain ⟨here, rest⟩ := List.forall_mem_cons.mp h
    obtain ⟨a, b, c, d, digits, value⟩ := unit?_hexDigits here
    simp only [List.flatMap_cons, escapeUnit, digits, List.cons_append,
      List.nil_append, decodeUnits, value, ih rest]
    cases decodeUnits r <;> rfl

theorem eq_ofNat {c : Char} {n : Nat} (h : c.toNat = n) : c = Char.ofNat n := by
  rw [← h, Char.ofNat_toNat]

theorem shortMeaning?_of_shortEscape? {c e : Char} (h : shortEscape? c = some e) :
    shortMeaning? e = some c ∧ e ≠ 'u' ∧ units c = [c.toNat] := by
  have short : c = '"' ∧ e = '"' ∨ c = '\\' ∧ e = '\\' ∨ c = '\n' ∧ e = 'n' ∨ c = '\r' ∧ e = 'r' ∨
      c = '\t' ∧ e = 't' ∨ c = Char.ofNat 12 ∧ e = 'f' ∨ c = Char.ofNat 8 ∧ e = 'b' := by
    have feed : c.toNat = 12 → c = Char.ofNat 12 := eq_ofNat
    have back : c.toNat = 8 → c = Char.ofNat 8 := eq_ofNat
    unfold shortEscape? at h
    split_ifs at h <;> cases h <;> simp_all
  rcases short with ⟨rfl, rfl⟩ | ⟨rfl, rfl⟩ | ⟨rfl, rfl⟩ | ⟨rfl, rfl⟩ | ⟨rfl, rfl⟩ | ⟨rfl, rfl⟩ | ⟨rfl, rfl⟩ <;>
    decide

theorem decodeUnits_short {c e : Char} (other : e ≠ 'u') (meaning : shortMeaning? e = some c)
    (r : List Char) :
    decodeUnits ('\\' :: e :: r) = (decodeUnits r).map fun x => (c.toNat :: x.1, x.2) := by
  rw [decodeUnits.eq_def]
  simp [other, meaning]

theorem decodeUnits_plain {c : Char} (ends : c ≠ quote) (escapes : c ≠ '\\') (shown : 32 ≤ c.toNat)
    (r : List Char) : decodeUnits (c :: r) = (decodeUnits r).map fun x => (c.toNat :: x.1, x.2) := by
  have inner : ¬ (c = '\\' ∨ c.toNat < 32) := by
    rw [not_or]
    exact ⟨escapes, by omega⟩
  rw [decodeUnits]
  · simp [ends, inner]
  · exact fun _ _ same => absurd same escapes

theorem decodeUnits_encodeChar (c : Char) (r : List Char) :
    decodeUnits (encodeChar c ++ r) = (decodeUnits r).map fun x => (units c ++ x.1, x.2) := by
  unfold encodeChar
  cases short : shortEscape? c with
  | some e =>
    obtain ⟨meaning, other, single⟩ := shortMeaning?_of_shortEscape? short
    rw [single]
    exact decodeUnits_short other meaning r
  | none =>
    dsimp only
    split_ifs with plain
    · have single : units c = [c.toNat] := if_pos (by simp [isPlain] at plain; omega)
      have bare : c ≠ quote ∧ c ≠ '\\' := by
        constructor <;> rintro rfl <;> cases short
      rw [single]
      exact decodeUnits_plain bare.1 bare.2 (by simp [isPlain] at plain; omega) r
    · exact decodeUnits_escapeUnits (units_lt c) r

theorem decodeUnits_encode (cs rest : List Char) :
    decodeUnits (cs.flatMap encodeChar ++ quote :: rest) = some (cs.flatMap units, rest) := by
  induction cs with
  | nil => simp [decodeUnits, quote]
  | cons c cs ih => rw [List.flatMap_cons, List.append_assoc, decodeUnits_encodeChar, ih]; rfl

theorem joinUnits_units (c : Char) (us : List Nat) :
    joinUnits (units c ++ us) = (joinUnits us).map (c :: ·) := by
  rcases units_cases c with ⟨single, -, notHigh, notLow⟩ | ⟨high, low, pair, h, l, whole⟩
  · cases us <;> simp [single, joinUnits, notHigh, notLow]
  · have isPair : isHigh (0xD800 + high) && isLow (0xDC00 + low) := by
      simp [isHigh, isLow]
      omega
    simp [pair, joinUnits, isPair, whole]

theorem joinUnits_flatMap (cs : List Char) : joinUnits (cs.flatMap units) = some cs := by
  induction cs with
  | nil => rfl
  | cons c cs ih => rw [List.flatMap_cons, joinUnits_units, ih]; rfl

theorem decode_encode (s : String) (rest : List Char) :
    decode (s.toList.flatMap encodeChar ++ quote :: rest) = some (s, rest) := by
  rw [decode, decodeUnits_encode]
  simp [joinUnits_flatMap]

end Flotilla.Json
