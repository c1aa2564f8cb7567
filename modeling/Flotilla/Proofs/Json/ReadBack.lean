import Flotilla.Json.Printer
import Flotilla.Proofs.Json.Number
import Flotilla.Proofs.Json.Quoted

namespace Flotilla.Json

/-- Its numbers are integers, and no field of a map is there twice. -/
inductive IsExact : Value → Prop
  | null : IsExact .null
  | bool (b : Bool) : IsExact (.bool b)
  | int (i : Int) : IsExact (.num (.int i))
  | text (s : String) : IsExact (.text s)
  | list {vs : List Value} (items : ∀ v ∈ vs, IsExact v) : IsExact (.list vs)
  | map {fs : List (String × Value)} (names : (fs.map (·.1)).Nodup) (fields : ∀ f ∈ fs, IsExact f.2) :
    IsExact (.map fs)

def ReadsBack (v : Value) : Prop :=
  ∀ (depth fuel : Nat) (rest : List Char), (block depth v).length < fuel → EndsLine rest →
    readValue fuel (block depth v ++ rest) = some (v, rest)

theorem isSpace_of_mem_newline {depth : Nat} : ∀ c ∈ newline depth, isSpace c := by
  intro c member
  simp only [newline, List.mem_cons, List.mem_replicate] at member
  rcases member with rfl | ⟨-, rfl⟩ <;> rfl

theorem skip_append {blanks : List Char} (h : ∀ c ∈ blanks, isSpace c) (cs : List Char) :
    skip (blanks ++ cs) = skip cs := List.dropWhile_append_of_pos h

theorem skip_of_head {c : Char} (h : isSpace c = false) (r : List Char) : skip (c :: r) = c :: r :=
  List.dropWhile_cons_of_neg (by simp [h])

theorem endsLine_newline (depth : Nat) (rest : List Char) : EndsLine (newline depth ++ rest) := by
  rintro c ⟨⟩
  exact .inr rfl

theorem readValue_append (fuel : Nat) {blanks : List Char} (h : ∀ c ∈ blanks, isSpace c) (cs : List Char) :
    readValue fuel (blanks ++ cs) = readValue fuel cs := by
  cases fuel with
  | zero => rfl
  | succ fuel => rw [readValue, readValue, skip_append h]

theorem readItems_append (fuel : Nat) (seen : List Value) {blanks : List Char} (h : ∀ c ∈ blanks, isSpace c)
    (cs : List Char) : readItems fuel seen (blanks ++ cs) = readItems fuel seen cs := by
  cases fuel with
  | zero => rfl
  | succ fuel => rw [readItems, readItems, readValue_append fuel h]

theorem readFields_append (fuel : Nat) (seen : List (String × Value)) {blanks : List Char}
    (h : ∀ c ∈ blanks, isSpace c) (cs : List Char) :
    readFields fuel seen (blanks ++ cs) = readFields fuel seen cs := by
  cases fuel with
  | zero => rfl
  | succ fuel => rw [readFields, readFields, skip_append h]

theorem int_cases (i : Int) : ∃ c r, (toString i).toList = c :: r ∧
    (c.isDigit ∨ c = '-' ∧ ∀ rest : List Char, (r ++ rest).head? ≠ some 'I') := by
  cases i with
  | ofNat n =>
    obtain ⟨c, ds, written, digit, -⟩ := Text.toDigits_cases n
    exact ⟨c, ds, Nat.toList_repr.trans written, .inl digit⟩
  | negSucc n =>
    obtain ⟨c, ds, written, digit, -⟩ := Text.toDigits_cases (n + 1)
    refine ⟨'-', c :: ds, by simp [toString, Int.repr, written], .inr ⟨rfl, ?_⟩⟩
    rintro rest ⟨⟩
    cases digit

theorem isSpace_of_isDigit {c : Char} (h : c.isDigit) : isSpace c = false := by
  simp only [isSpace, Bool.or_eq_false_iff, beq_eq_false_iff_ne]
  refine ⟨⟨⟨?_, ?_⟩, ?_⟩, ?_⟩ <;> rintro rfl <;> cases h

theorem readValue_number (fuel : Nat) {c : Char} {r : List Char}
    (h : c.isDigit ∨ c = '-' ∧ r.head? ≠ some 'I') :
    readValue (fuel + 1) (c :: r) = (readNumber (c :: r)).map fun x => (.num x.1, x.2) := by
  rcases h with digit | ⟨rfl, other⟩
  · have others : c ≠ '"' ∧ c ≠ '[' ∧ c ≠ '{' ∧ c ≠ 'n' ∧ c ≠ 't' ∧ c ≠ 'f' ∧ c ≠ 'N' ∧ c ≠ 'I' ∧
        c ≠ '-' := by
      refine ⟨?_, ?_, ?_, ?_, ?_, ?_, ?_, ?_, ?_⟩ <;> rintro rfl <;> cases digit
    rw [readValue, skip_of_head (isSpace_of_isDigit digit)]
    simp [others]
  · rw [readValue, skip_of_head (by decide)]
    simp [other]

theorem readsBack_int (i : Int) : ReadsBack (.num (.int i)) := by
  intro depth fuel rest room ends
  obtain ⟨fuel, rfl⟩ := Nat.exists_eq_succ_of_ne_zero (Nat.ne_zero_of_lt room)
  obtain ⟨c, r, written, first⟩ := int_cases i
  have read := readNumber_toString i ends
  change readValue (fuel + 1) ((toString i).toList ++ rest) = _
  rw [written] at read ⊢
  rw [List.cons_append] at read ⊢
  rw [readValue_number fuel (first.imp_right fun x => ⟨x.1, x.2 rest⟩), read]
  rfl

theorem readsBack_text (s : String) : ReadsBack (.text s) := by
  intro depth fuel rest room ends
  obtain ⟨fuel, rfl⟩ := Nat.exists_eq_succ_of_ne_zero (Nat.ne_zero_of_lt room)
  have written : block depth (.text s) ++ rest =
      '"' :: (s.toList.flatMap encodeChar ++ quote :: rest) := by
    simp [block, line, encode, quote]
  rw [written, readValue, skip_of_head (by decide)]
  simp [decode_encode]

theorem block_cases (depth : Nat) {v : Value} (exact : IsExact v) :
    ∃ c r, block depth v = c :: r ∧ isSpace c = false ∧ c ≠ ']' := by
  cases exact with
  | null => exact ⟨_, _, rfl, by decide, by decide⟩
  | bool b => cases b <;> exact ⟨_, _, rfl, by decide, by decide⟩
  | int i =>
    obtain ⟨c, r, written, digit | ⟨rfl, -⟩⟩ := int_cases i
    · exact ⟨c, r, written, isSpace_of_isDigit digit, by rintro rfl; cases digit⟩
    · exact ⟨'-', r, written, by decide, by decide⟩
  | text s => exact ⟨_, _, rfl, by decide, by decide⟩
  | @list vs _ => cases vs <;> exact ⟨_, _, rfl, by decide, by decide⟩
  | @map fs _ _ => rcases fs with _ | ⟨⟨k, v⟩, r⟩ <;> exact ⟨_, _, rfl, by decide, by decide⟩

theorem endsLine_blockItems (depth outer : Nat) (vs : List Value) (rest : List Char) :
    EndsLine (blockItems depth vs ++ (newline outer ++ rest)) := by
  cases vs with
  | nil => exact endsLine_newline outer rest
  | cons v r =>
    rintro c ⟨⟩
    exact .inl rfl

theorem endsLine_blockFields (depth outer : Nat) (fs : List (String × Value)) (rest : List Char) :
    EndsLine (blockFields depth fs ++ (newline outer ++ rest)) := by
  cases fs with
  | nil => exact endsLine_newline outer rest
  | cons f r =>
    rintro c ⟨⟩
    exact .inl rfl

theorem readItems_blockItems {depth : Nat} (outer : Nat) {v : Value} {r : List Value}
    (each : ∀ w ∈ v :: r, ReadsBack w) {fuel : Nat}
    (room : (block depth v).length + (blockItems depth r).length + 1 < fuel)
    (seen : List Value) (rest : List Char) :
    readItems fuel seen (block depth v ++ (blockItems depth r ++ (newline outer ++ ']' :: rest))) =
      some (seen.reverse ++ v :: r, rest) := by
  induction r generalizing v fuel seen with
  | nil =>
    obtain ⟨fuel, rfl⟩ := Nat.exists_eq_succ_of_ne_zero (Nat.ne_zero_of_lt room)
    have first := each v List.mem_cons_self depth fuel _ (by omega)
      (endsLine_blockItems depth outer [] (']' :: rest))
    rw [readItems, first]
    simp [blockItems, skip_append isSpace_of_mem_newline, skip_of_head, isSpace]
  | cons w r ih =>
    obtain ⟨fuel, rfl⟩ := Nat.exists_eq_succ_of_ne_zero (Nat.ne_zero_of_lt room)
    have first := each v List.mem_cons_self depth fuel _ (by omega)
      (endsLine_blockItems depth outer (w :: r) (']' :: rest))
    have left : (block depth w).length + (blockItems depth r).length + 1 < fuel := by
      simp [blockItems, newline] at room
      omega
    have others := ih (fun u member => each u (List.mem_cons_of_mem v member)) left (v :: seen)
    rw [readItems, first]
    simp [blockItems, skip_of_head, isSpace, readItems_append fuel _ isSpace_of_mem_newline, others]

theorem isSpace_colon : isSpace ':' = false := by decide

theorem encode_append (s : String) (rest : List Char) :
    encode s ++ rest = '"' :: (s.toList.flatMap encodeChar ++ quote :: rest) := by
  simp [encode, quote]

section
variable (fuel : Nat) (seen : List (String × Value)) (k : String) {v : Value} {text rest r : List Char}
  (value : readValue fuel text = some (v, rest))
include value

theorem readValue_spaced : readValue fuel (' ' :: text) = some (v, rest) := by
  have blank : ∀ c ∈ [' '], isSpace c := List.forall_mem_singleton.mpr rfl
  exact (readValue_append fuel blank text).trans value

theorem readFields_next (next : skip rest = ',' :: r) :
    readFields (fuel + 1) seen (encode k ++ ':' :: ' ' :: text) =
      readFields fuel (Table.putEntry k v seen) r := by
  have spaced := readValue_spaced fuel value
  rw [encode_append, readFields, skip_of_head (by decide)]
  simp only [decode_encode, Option.bind_eq_bind, Option.bind_some, skip_of_head isSpace_colon, spaced, next]

theorem readFields_last (last : skip rest = '}' :: r) :
    readFields (fuel + 1) seen (encode k ++ ':' :: ' ' :: text) =
      some (Table.putEntry k v seen, r) := by
  have spaced := readValue_spaced fuel value
  rw [encode_append, readFields, skip_of_head (by decide)]
  simp only [decode_encode, Option.bind_eq_bind, Option.bind_some, skip_of_head isSpace_colon, spaced, last]

end

theorem readFields_blockFields {depth : Nat} (outer : Nat) {k : String} {v : Value}
    {r : List (String × Value)}
    (each : ∀ f ∈ (k, v) :: r, ReadsBack f.2) {fuel : Nat}
    (room : (block depth v).length + (blockFields depth r).length + 1 < fuel)
    (seen : List (String × Value)) (distinct : ((seen ++ (k, v) :: r).map (·.1)).Nodup)
    (rest : List Char) :
    readFields fuel seen (encode k ++ ':' :: ' ' ::
        (block depth v ++ (blockFields depth r ++ (newline outer ++ '}' :: rest)))) =
      some (seen ++ (k, v) :: r, rest) := by
  induction r generalizing k v fuel seen with
  | nil =>
    obtain ⟨fuel, rfl⟩ := Nat.exists_eq_succ_of_ne_zero (Nat.ne_zero_of_lt room)
    have first := each (k, v) List.mem_cons_self depth fuel _ (by dsimp only; omega)
      (endsLine_blockFields depth outer [] ('}' :: rest))
    have last : skip (blockFields depth [] ++ (newline outer ++ '}' :: rest)) = '}' :: rest := by
      simp [blockFields, skip_append isSpace_of_mem_newline, skip_of_head, isSpace]
    rw [readFields_last fuel seen k first last, Table.putEntry_of_nodup distinct]
  | cons f r ih =>
    obtain ⟨fuel, rfl⟩ := Nat.exists_eq_succ_of_ne_zero (Nat.ne_zero_of_lt room)
    have first := each (k, v) List.mem_cons_self depth fuel _ (by dsimp only; omega)
      (endsLine_blockFields depth outer (f :: r) ('}' :: rest))
    have left : (block depth f.2).length + (blockFields depth r).length + 1 < fuel := by
      simp [blockFields, newline] at room
      omega
    have distinct' : ((seen ++ [(k, v)] ++ f :: r).map (·.1)).Nodup := by simpa using distinct
    have others := ih (fun g member => each g (List.mem_cons_of_mem (k, v) member)) left _ distinct'
    have next : skip (blockFields depth (f :: r) ++ (newline outer ++ '}' :: rest)) = ',' ::
        (newline depth ++ (encode f.1 ++ ':' :: ' ' :: (block depth f.2 ++
          (blockFields depth r ++ (newline outer ++ '}' :: rest))))) := by
      simp [blockFields, skip_of_head, isSpace]
    rw [readFields_next fuel seen k first next, Table.putEntry_of_nodup distinct,
      readFields_append fuel _ isSpace_of_mem_newline, others]
    simp

theorem readValue_items (fuel depth : Nat) {c : Char} {r : List Char} (solid : isSpace c = false)
    (notEnd : c ≠ ']') : readValue (fuel + 1) ('[' :: (newline depth ++ c :: r)) =
      (readItems fuel [] (c :: r)).map fun x => (.list x.1, x.2) := by
  rw [readValue, skip_of_head (by decide)]
  simp [skip_append isSpace_of_mem_newline, skip_of_head solid, notEnd]

theorem readValue_fields (fuel depth : Nat) (r : List Char) :
    readValue (fuel + 1) ('{' :: (newline depth ++ '"' :: r)) =
      (readFields fuel [] ('"' :: r)).map fun x => (.map x.1, x.2) := by
  have solid : isSpace '"' = false := by decide
  rw [readValue, skip_of_head (by decide)]
  simp [skip_append isSpace_of_mem_newline, skip_of_head solid]

theorem readsBack {v : Value} (exact : IsExact v) : ReadsBack v := by
  induction exact with
  | int i => exact readsBack_int i
  | text s => exact readsBack_text s
  | null =>
    intro depth fuel rest room _
    obtain ⟨fuel, rfl⟩ := Nat.exists_eq_succ_of_ne_zero (Nat.ne_zero_of_lt room)
    change readValue (fuel + 1) ('n' :: 'u' :: 'l' :: 'l' :: rest) = _
    rw [readValue, skip_of_head (by decide)]
    simp [takeWord]
  | bool b =>
    intro depth fuel rest room _
    obtain ⟨fuel, rfl⟩ := Nat.exists_eq_succ_of_ne_zero (Nat.ne_zero_of_lt room)
    cases b
    · change readValue (fuel + 1) ('f' :: 'a' :: 'l' :: 's' :: 'e' :: rest) = _
      rw [readValue, skip_of_head (by decide)]
      simp [takeWord]
    · change readValue (fuel + 1) ('t' :: 'r' :: 'u' :: 'e' :: rest) = _
      rw [readValue, skip_of_head (by decide)]
      simp [takeWord]
  | @list vs items ih =>
    intro depth fuel rest room _
    obtain ⟨fuel, rfl⟩ := Nat.exists_eq_succ_of_ne_zero (Nat.ne_zero_of_lt room)
    cases vs with
    | nil =>
      have written : block depth (.list []) ++ rest = '[' :: ']' :: rest := by simp [block]
      rw [written, readValue, skip_of_head (by decide)]
      simp [skip_of_head, isSpace]
    | cons v r =>
      obtain ⟨c, t, first, solid, notEnd⟩ := block_cases (depth + 1) (items v List.mem_cons_self)
      have left : (block (depth + 1) v).length + (blockItems (depth + 1) r).length + 1 < fuel := by
        simp [block, newline] at room
        omega
      have read := readItems_blockItems depth ih left [] rest
      have written : block depth (.list (v :: r)) ++ rest = '[' :: (newline (depth + 1) ++
          (block (depth + 1) v ++ (blockItems (depth + 1) r ++ (newline depth ++ ']' :: rest)))) := by
        simp [block]
      rw [written, first, List.cons_append, readValue_items fuel _ solid notEnd, ← List.cons_append, ← first,
        read]
      rfl
  | @map fs names fields ih =>
    intro depth fuel rest room _
    obtain ⟨fuel, rfl⟩ := Nat.exists_eq_succ_of_ne_zero (Nat.ne_zero_of_lt room)
    rcases fs with _ | ⟨⟨k, v⟩, r⟩
    · have written : block depth (.map []) ++ rest = '{' :: '}' :: rest := by simp [block]
      rw [written, readValue, skip_of_head (by decide)]
      simp [skip_of_head, isSpace]
    · have left : (block (depth + 1) v).length + (blockFields (depth + 1) r).length + 1 < fuel := by
        simp [block, newline, encode] at room
        omega
      have read := readFields_blockFields depth ih left [] names rest
      have written : block depth (.map ((k, v) :: r)) ++ rest = '{' :: (newline (depth + 1) ++ (encode k ++
          ':' :: ' ' :: (block (depth + 1) v ++
            (blockFields (depth + 1) r ++ (newline depth ++ '}' :: rest))))) := by
        simp [block]
      rw [encode_append] at read written
      rw [written, readValue_fields, read]
      rfl

/-- What is written in a block is read back, whatever it is of integers, texts, lists and maps. -/
theorem read_printBlock {v : Value} (exact : IsExact v) : read (printBlock v) = some v := by
  have ends : EndsLine [] := nofun
  have whole := readsBack exact 0 _ [] (Nat.lt_succ_self _) ends
  rw [List.append_nil] at whole
  rw [read, printBlock, String.toList_ofList, whole]
  rfl

end Flotilla.Json
