import Flotilla.Json.Reader
import Flotilla.Proofs.Text.Pieces

namespace Flotilla.Json

theorem isAsciiDigit_eq (c : Char) : isAsciiDigit c = c.isDigit := by
  rw [Bool.eq_iff_iff, isAsciiDigit, Char.isDigit, Bool.and_eq_true, Bool.and_eq_true, decide_eq_true_iff,
    decide_eq_true_iff, decide_eq_true_iff, decide_eq_true_iff]
  rfl

theorem ofAsciiDigits_toDigits (n : Nat) : ofAsciiDigits (Nat.toDigits 10 n) = n :=
  Nat.ofDigitChars_ten_toDigits

def EndsLine (rest : List Char) : Prop := ∀ c ∈ rest.head?, c = ',' ∨ c = '\n'

theorem takeWhile_toDigits (n : Nat) {rest : List Char} (ends : EndsLine rest) :
    (Nat.toDigits 10 n ++ rest).takeWhile isAsciiDigit = Nat.toDigits 10 n := by
  have digits : ∀ c ∈ Nat.toDigits 10 n, isAsciiDigit c := fun c member => by
    rw [isAsciiDigit_eq]
    exact Text.isDigit_of_mem_toDigits member
  rw [List.takeWhile_append_of_pos digits]
  cases rest with
  | nil => simp
  | cons c r =>
    rcases ends c rfl with rfl | rfl <;> simp [isAsciiDigit]

theorem readUnsigned_toDigits (negative : Bool) (n : Nat) {rest : List Char} (ends : EndsLine rest) :
    readUnsigned negative (Nat.toDigits 10 n ++ rest) =
      some (.int (if negative then -n else n), rest) := by
  have noFraction : takeFraction rest = ([], rest) := by
    cases rest with
    | nil => rfl
    | cons c r => rcases ends c rfl with rfl | rfl <;> rfl
  have noExponent : takeExponent rest = (none, rest) := by
    cases rest with
    | nil => rfl
    | cons c r => rcases ends c rfl with rfl | rfl <;> rfl
  obtain ⟨c, ds, written, -, alone⟩ := Text.toDigits_cases n
  have proper : ((Nat.toDigits 10 n).isEmpty ||
      ((Nat.toDigits 10 n).length > 1 && (Nat.toDigits 10 n).head? == some '0')) = false := by
    by_cases zero : c = '0' <;> simp [written, zero, alone]
  unfold readUnsigned
  simp only [takeWhile_toDigits n ends, proper, List.drop_left, noFraction, noExponent]
  rw [ofAsciiDigits_toDigits]
  rfl

theorem readNumber_toString (i : Int) {rest : List Char} (ends : EndsLine rest) :
    readNumber ((toString i).toList ++ rest) = some (.int i, rest) := by
  cases i with
  | ofNat n =>
    have written : (toString (Int.ofNat n)).toList = Nat.toDigits 10 n := Nat.toList_repr
    obtain ⟨c, ds, first, digit, -⟩ := Text.toDigits_cases n
    rw [written, readNumber]
    · exact readUnsigned_toDigits false n ends
    · intro r minus
      rw [first] at minus
      obtain ⟨rfl, -⟩ := List.cons.inj minus
      cases digit
  | negSucc n =>
    have written : (toString (Int.negSucc n)).toList = '-' :: Nat.toDigits 10 (n + 1) := by
      simp [toString, Int.repr]
    rw [written]
    exact readUnsigned_toDigits true (n + 1) ends

end Flotilla.Json
