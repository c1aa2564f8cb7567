import Flotilla.Proofs.Text.Pieces
import Flotilla.Proofs.Yaml.Layout

namespace Flotilla.Yaml

/-- A line with visible characters at either end, and nothing but these and blanks between. -/
structure Line.IsProper (l : Line) : Prop where
  first : ∃ c r, l.content = c :: r ∧ isVisible c
  last : ∃ r c, l.content = r ++ [c] ∧ isVisible c
  clean : ∀ c ∈ l.content, isVisible c ∨ c = ' '

namespace Line

theorem ofChars_text {l : Line} (proper : l.IsProper) :
    ofChars (List.replicate l.indent ' ' ++ l.content) = l := by
  obtain ⟨c, r, first, visible⟩ := proper.first
  have blanks : ∀ c ∈ List.replicate l.indent ' ', isSpaceChar c := by
    intro c member
    rw [List.eq_of_mem_replicate member]
    rfl
  have solid : isSpaceChar c = false := isSpaceChar_of_isVisible visible
  have whole : l.content.rdropWhile isSpaceChar = l.content := by
    obtain ⟨r, c, last, visible⟩ := proper.last
    rw [last, List.rdropWhile_concat_neg _ _ _ (by simp [isSpaceChar_of_isVisible visible])]
  rw [ofChars, List.takeWhile_append_of_pos blanks, List.dropWhile_append_of_pos blanks]
  have start : l.content.takeWhile isSpaceChar = [] ∧ l.content.dropWhile isSpaceChar = l.content := by
    simp [first, solid]
  simp [start, whole]

theorem ofText_textOf {ls : List Line} (proper : ∀ l ∈ ls, l.IsProper) : ofText (textOf ls) = ls := by
  induction ls with
  | nil => rfl
  | cons l r ih =>
    obtain ⟨here, others⟩ := List.forall_mem_cons.mp proper
    have oneLine : '\n' ∉ List.replicate l.indent ' ' ++ l.content := by
      rw [List.mem_append, not_or]
      refine ⟨fun member => ?_, fun member => ?_⟩
      · exact absurd (List.eq_of_mem_replicate member) (by decide)
      · exact (here.clean '\n' member).elim (by decide) (by decide)
    have given : l.content.isEmpty = false := by
      obtain ⟨c, r, first, -⟩ := here.first
      rw [first, List.isEmpty_cons]
    have split : Text.splitChars '\n' (textOf (l :: r)) =
        (List.replicate l.indent ' ' ++ l.content) :: Text.splitChars '\n' (textOf r) := by
      rw [textOf_cons, Line.text, List.append_assoc, List.singleton_append, Text.splitChars_append,
        Text.splitChars_of_notMem oneLine, List.singleton_append]
    rw [ofText] at ih ⊢
    rw [split, List.map_cons, ofChars_text here, List.filter_cons, given, ih others]
    rfl

end Line

theorem isVisible_colon : isVisible ':' := by decide

theorem isVisible_dash : isVisible '-' := by decide

theorem isProper_keyLine (own : Nat) {k : String} (key : IsWord k.toList) {v : Value} (tidy : IsTidy v) :
    (keyLine own k v).IsProper := by
  obtain ⟨c, r, written⟩ := List.exists_cons_of_ne_nil key.spelled_ne_nil
  have visible := key.visible_spelled
  have first : ∃ c r, (keyLine own k v).content = c :: r ∧ isVisible c :=
    ⟨c, r ++ ':' :: behind v, by simp [keyLine, written], visible c (by simp [written])⟩
  have bare (none : behind v = []) : (keyLine own k v).IsProper := by
    refine ⟨first, ⟨spelled k.toList, ':', by simp [keyLine, none], isVisible_colon⟩, ?_⟩
    simp only [keyLine, none, List.mem_append, List.mem_singleton]
    rintro c (member | rfl)
    · exact .inl (visible c member)
    · exact .inl isVisible_colon
  cases tidy with
  | list given words => exact bare rfl
  | map given names keys values => exact bare rfl
  | @text s word =>
    have visible' := word.visible_spelled
    refine ⟨first, ?_, ?_⟩
    · refine ⟨spelled k.toList ++ ':' :: ' ' :: (spelled s.toList).dropLast,
        (spelled s.toList).getLast word.spelled_ne_nil, ?_, visible' _ (List.getLast_mem _)⟩
      simp [keyLine, behind, List.dropLast_append_getLast]
    · simp only [keyLine, behind, List.mem_append, List.mem_cons]
      rintro c (member | rfl | rfl | member)
      · exact .inl (visible c member)
      · exact .inl isVisible_colon
      · exact .inr rfl
      · exact .inl (visible' c member)

theorem isProper_itemLine (own : Nat) {s : String} (word : IsWord s.toList) :
    (itemLine own (.text s)).IsProper := by
  have visible := word.visible_spelled
  refine ⟨⟨'-', _, rfl, isVisible_dash⟩, ?_, ?_⟩
  · refine ⟨'-' :: ' ' :: (spelled s.toList).dropLast, (spelled s.toList).getLast word.spelled_ne_nil, ?_,
      visible _ (List.getLast_mem _)⟩
    simp [itemLine, behind, List.dropLast_append_getLast]
  · simp only [itemLine, behind, List.mem_cons]
    rintro c (rfl | rfl | member)
    · exact .inl isVisible_dash
    · exact .inr rfl
    · exact .inl (visible c member)

theorem fieldLines_eq_flatMap (own : Nat) (fs : List (String × Value)) :
    fieldLines own fs = fs.flatMap fun f => keyLine own f.1 f.2 :: linesBelow own f.2 := by
  induction fs with
  | nil => rfl
  | cons f r ih =>
    obtain ⟨k, v⟩ := f
    rw [fieldLines, ih]
    rfl

theorem isProper_fieldLines (own : Nat) {fs : List (String × Value)}
    (keys : ∀ f ∈ fs, IsKeyWord f.1.toList) (values : ∀ f ∈ fs, IsTidy f.2)
    (below : ∀ f ∈ fs, ∀ l ∈ linesBelow own f.2, l.IsProper) : ∀ l ∈ fieldLines own fs, l.IsProper := by
  intro l member
  rw [fieldLines_eq_flatMap, List.mem_flatMap] at member
  obtain ⟨f, field, member⟩ := member
  rcases List.mem_cons.mp member with rfl | member
  · exact isProper_keyLine own (keys f field).toIsWord (values f field)
  · exact below f field l member

theorem isProper_linesBelow {v : Value} (tidy : IsTidy v) (own : Nat) :
    ∀ l ∈ linesBelow own v, l.IsProper := by
  induction tidy generalizing own with
  | text word =>
    intro l member
    cases member
  | list given words =>
    intro l member
    simp only [linesBelow, List.map_map, List.mem_map] at member
    obtain ⟨s, item, rfl⟩ := member
    exact isProper_itemLine own (words s item)
  | map given names keys values ih =>
    exact isProper_fieldLines _ keys values fun f field => ih f field _

def EndsBefore (column : Nat) (rest : List Line) : Prop :=
  ∀ l ∈ rest.head?, l.indent < column ∧ l.isItem = false

/-- A value is read from behind its key and from the lines below, and no further. It takes a step or two
for each line, one to go into the block, and one to see that it ends. -/
def ReadsBack (v : Value) : Prop :=
  ∀ own fuel rest, 2 * (linesBelow own v).length + 2 < fuel → EndsBefore (own + 1) rest →
    readBehind (readBlock fuel) own ((behind v).dropWhile isSpaceChar) (linesBelow own v ++ rest) =
      some (v, rest)

theorem IsWord.dropWhile_blank {cs : List Char} (word : IsWord cs) :
    (' ' :: cs).dropWhile isSpaceChar = cs := by
  obtain ⟨c, r, rfl⟩ := List.exists_cons_of_ne_nil word.ne_nil
  have blank : isSpaceChar ' ' = true := rfl
  simp [blank, isSpaceChar_of_isVisible (word.visible c List.mem_cons_self)]

theorem readsBack_text {s : String} (word : IsWord s.toList) : ReadsBack (.text s) := by
  intro own fuel rest _ _
  have given : (spelled s.toList).isEmpty = false := List.isEmpty_eq_false_iff.mpr word.spelled_ne_nil
  rw [behind, word.isWord_spelled.dropWhile_blank, readBehind, given, word.readScalar_spelled,
    String.ofList_toList]
  rfl

theorem readItems_of_endsBefore (fuel own column : Nat) {rest : List Line}
    (ends : EndsBefore column rest) : readItems (fuel + 1) own rest = some ([], rest) := by
  cases rest with
  | nil => rfl
  | cons l r => simp [readItems, (ends l rfl).2]

theorem readFields_of_endsBefore (fuel : Nat) {own : Nat} (seen : List (String × Value))
    {rest : List Line} (ends : EndsBefore own rest) :
    readFields (fuel + 1) own seen rest = some (seen, rest) := by
  cases rest with
  | nil => rfl
  | cons l r => simp [readFields, Nat.ne_of_lt (ends l rfl).1]

theorem behindMark_itemLine (own : Nat) {s : String} (word : IsWord s.toList) (ls : List Line) :
    (itemLine own (.text s)).behindMark ls = ⟨own + 2, spelled s.toList⟩ :: ls := by
  have given : (spelled s.toList).isEmpty = false := List.isEmpty_eq_false_iff.mpr word.spelled_ne_nil
  simp only [itemLine, behind, Line.behindMark, List.drop_succ_cons, List.drop_zero,
    word.isWord_spelled.dropWhile_blank, given, List.length_cons]
  rw [if_neg Bool.false_ne_true]
  congr 2
  omega

theorem readBlock_word (fuel n : Nat) {s : String} (word : IsWord s.toList) (ls : List Line) :
    readBlock (fuel + 1) (⟨n, spelled s.toList⟩ :: ls) = some (.text s, ls) := by
  have noItem := word.isItem_spelled n []
  rw [List.append_nil] at noItem
  simp [readBlock, noItem, word.readKey_spelled, word.readScalar_spelled]

theorem readItems_texts {own : Nat} {ss : List String} (words : ∀ s ∈ ss, IsWord s.toList) {fuel : Nat}
    (room : ss.length + 1 < fuel) {rest : List Line} (ends : EndsBefore (own + 1) rest) :
    readItems fuel own ((ss.map .text).map (itemLine own) ++ rest) = some (ss.map .text, rest) := by
  induction ss generalizing fuel with
  | nil =>
    obtain ⟨fuel, rfl⟩ := Nat.exists_eq_succ_of_ne_zero (Nat.ne_zero_of_lt room)
    exact readItems_of_endsBefore fuel own (own + 1) ends
  | cons s r ih =>
    obtain ⟨here, others⟩ := List.forall_mem_cons.mp words
    obtain ⟨fuel, rfl⟩ : ∃ n, fuel = n + 2 := ⟨fuel - 2, by omega⟩
    have isItem : (itemLine own (.text s)).isItem = true := rfl
    have column : (itemLine own (.text s)).indent = own := rfl
    have left : r.length + 1 < fuel + 1 := by
      rw [List.length_cons] at room
      omega
    have next := ih others left
    simp only [List.map_cons, List.cons_append]
    rw [readItems, isItem, column, behindMark_itemLine own here]
    simp [readBlock_word _ _ here, next, -List.map_map]

theorem readBehind_block (block : List Line → Option (Value × List Line)) {own : Nat} {l : Line}
    {ls : List Line} (first : l ∈ ls.head?) (belongs : own < l.indent ∨ l.indent = own ∧ l.isItem) :
    readBehind block own [] ls = block ls := by
  rw [readBehind, Option.mem_def.mp first]
  simp [belongs]

theorem readsBack_list {ss : List String} (given : ss ≠ []) (words : ∀ s ∈ ss, IsWord s.toList) :
    ReadsBack (.list (ss.map .text)) := by
  intro own fuel rest room ends
  obtain ⟨fuel, rfl⟩ := Nat.exists_eq_succ_of_ne_zero (Nat.ne_zero_of_lt room)
  have left : ss.length + 1 < fuel := by
    simp only [linesBelow, List.length_map] at room
    omega
  have items := readItems_texts words left ends
  obtain ⟨s, r, rfl⟩ := List.exists_cons_of_ne_nil given
  have isItem : (itemLine own (.text s)).isItem = true := rfl
  have column : (itemLine own (.text s)).indent = own := rfl
  refine (readBehind_block _ (l := itemLine own (.text s)) rfl (.inr ⟨column, isItem⟩)).trans ?_
  simp only [linesBelow, List.map_cons, List.cons_append] at items ⊢
  rw [readBlock, isItem, column, items]
  rfl

theorem readKey_keyLine (own : Nat) {k : String} (key : IsKeyWord k.toList) (v : Value) :
    readKey (keyLine own k v).content = some (k, (behind v).dropWhile isSpaceChar) := by
  have gap : gapNext (behind v) = true := by cases v <;> rfl
  have short : k.toList.length < keyLimit := Nat.lt_of_le_of_lt (Nat.le_add_right _ _) key.short
  rw [keyLine, key.toIsWord.readKey_spelled_append gap short, String.ofList_toList]

theorem isItem_keyLine (own : Nat) {k : String} (key : IsWord k.toList) (v : Value) :
    (keyLine own k v).isItem = false := key.isItem_spelled own _

theorem endsBefore_fieldLines {own : Nat} {fs : List (String × Value)}
    (keys : ∀ f ∈ fs, IsKeyWord f.1.toList) {rest : List Line} (ends : EndsBefore own rest) :
    EndsBefore (own + 1) (fieldLines own fs ++ rest) := by
  cases fs with
  | nil => exact fun l member => ⟨Nat.lt_succ_of_lt (ends l member).1, (ends l member).2⟩
  | cons f r =>
    obtain ⟨k, v⟩ := f
    intro l first
    obtain rfl : keyLine own k v = l := Option.some.inj first
    exact ⟨Nat.lt_succ_self own, isItem_keyLine own (keys (k, v) List.mem_cons_self).toIsWord v⟩

theorem readFields_fieldLines {own : Nat} {fs : List (String × Value)}
    (keys : ∀ f ∈ fs, IsKeyWord f.1.toList) (values : ∀ f ∈ fs, ReadsBack f.2) {fuel : Nat}
    (room : 2 * (fieldLines own fs).length + 1 < fuel) (seen : List (String × Value))
    (distinct : ((seen ++ fs).map (·.1)).Nodup) {rest : List Line} (ends : EndsBefore own rest) :
    readFields fuel own seen (fieldLines own fs ++ rest) = some (seen ++ fs, rest) := by
  induction fs generalizing fuel seen with
  | nil =>
    obtain ⟨fuel, rfl⟩ := Nat.exists_eq_succ_of_ne_zero (Nat.ne_zero_of_lt room)
    simpa [fieldLines] using readFields_of_endsBefore fuel seen ends
  | cons f r ih =>
    obtain ⟨k, v⟩ := f
    obtain ⟨fuel, rfl⟩ := Nat.exists_eq_succ_of_ne_zero (Nat.ne_zero_of_lt room)
    obtain ⟨key, keys⟩ := List.forall_mem_cons.mp keys
    obtain ⟨value, values⟩ := List.forall_mem_cons.mp values
    simp only [fieldLines, List.length_cons, List.length_append] at room
    have first := value own fuel (fieldLines own r ++ rest) (by dsimp only; omega)
      (endsBefore_fieldLines keys ends)
    have put : Table.putEntry k v seen = seen ++ [(k, v)] := Table.putEntry_of_nodup distinct
    have left : 2 * (fieldLines own r).length + 1 < fuel := by omega
    have distinct' : ((seen ++ [(k, v)] ++ r).map (·.1)).Nodup := by simpa using distinct
    have next := ih keys values left (seen ++ [(k, v)]) distinct'
    have column : (keyLine own k v).indent = own := rfl
    rw [fieldLines, List.cons_append, readFields, column, readKey_keyLine own key]
    simp [first, put, next]

theorem readBlock_keyLine (fuel own : Nat) {k : String} (key : IsKeyWord k.toList) (v : Value)
    (ls : List Line) : readBlock (fuel + 1) (keyLine own k v :: ls) =
      (readFields fuel own [] (keyLine own k v :: ls)).map fun x => (.map x.1, x.2) := by
  rw [readBlock, isItem_keyLine own key.toIsWord, readKey_keyLine own key]
  rfl

theorem readBlock_fieldLines {own : Nat} {fs : List (String × Value)} (given : fs ≠ [])
    (distinct : (fs.map (·.1)).Nodup) (keys : ∀ f ∈ fs, IsKeyWord f.1.toList)
    (values : ∀ f ∈ fs, ReadsBack f.2) {fuel : Nat}
    (room : 2 * (fieldLines own fs).length + 2 < fuel) {rest : List Line} (ends : EndsBefore own rest) :
    readBlock fuel (fieldLines own fs ++ rest) = some (.map fs, rest) := by
  obtain ⟨fuel, rfl⟩ := Nat.exists_eq_succ_of_ne_zero (Nat.ne_zero_of_lt room)
  have left : 2 * (fieldLines own fs).length + 1 < fuel := by omega
  have fields : readFields fuel own [] (fieldLines own fs ++ rest) = some (fs, rest) :=
    readFields_fieldLines keys values left [] distinct ends
  obtain ⟨⟨k, v⟩, r, rfl⟩ := List.exists_cons_of_ne_nil given
  rw [fieldLines, List.cons_append] at fields ⊢
  rw [readBlock_keyLine fuel own (keys (k, v) List.mem_cons_self), fields]
  rfl

theorem readsBack_of_isTidy {v : Value} (tidy : IsTidy v) : ReadsBack v := by
  induction tidy with
  | text word => exact readsBack_text word
  | list given words => exact readsBack_list given words
  | @map fs given distinct keys _ ih =>
    intro own fuel rest room ends
    have outer : EndsBefore (own + indentWidth) rest := fun l member =>
      ⟨Nat.lt_succ_of_lt (ends l member).1, (ends l member).2⟩
    have block := readBlock_fieldLines given distinct keys ih room outer
    obtain ⟨⟨k, v⟩, r, rfl⟩ := List.exists_cons_of_ne_nil given
    have below : own < (keyLine (own + indentWidth) k v).indent := Nat.lt_add_of_pos_right (by decide)
    exact (readBehind_block _ rfl (.inl below)).trans block

theorem any_isSpecial_textOf {ls : List Line} (proper : ∀ l ∈ ls, l.IsProper) :
    (textOf ls).any isSpecial = false := by
  have blank : isSpecial ' ' = false := by decide
  have newline : isSpecial '\n' = false := by decide
  rw [textOf, List.any_flatMap]
  refine List.any_eq_false.mpr fun l line => Bool.eq_false_iff.mp (List.any_eq_false.mpr ?_)
  intro c member
  rw [Line.text, List.mem_append, List.mem_append, List.mem_replicate, List.mem_singleton] at member
  rw [Bool.not_eq_true]
  obtain (⟨-, rfl⟩ | member) | rfl := member
  · exact blank
  · obtain visible | rfl := (proper l line).clean c member
    · exact isSpecial_of_isVisible visible
    · exact blank
  · exact newline

theorem length_textOf {ls : List Line} (proper : ∀ l ∈ ls, l.IsProper) :
    2 * ls.length ≤ (textOf ls).length := by
  induction ls with
  | nil => exact Nat.le_refl 0
  | cons l r ih =>
    obtain ⟨here, others⟩ := List.forall_mem_cons.mp proper
    obtain ⟨c, cs, first, -⟩ := here.first
    have above := ih others
    simp only [textOf_cons, Line.text, first, List.length_append, List.length_cons, List.length_replicate]
    omega

theorem read_print {fs : List (String × Value)} (tidy : IsTidy (.map fs)) :
    read (print (.map fs)) = some (.map fs) := by
  have written := toList_print_map tidy
  cases tidy with
  | map given distinct keys values =>
    have proper := isProper_fieldLines 0 keys values
      fun f member => isProper_linesBelow (values f member) 0
    have room : 2 * (fieldLines 0 fs).length + 2 < 2 * (textOf (fieldLines 0 fs)).length + 1 := by
      have lines : 0 < (fieldLines 0 fs).length := by
        obtain ⟨⟨k, v⟩, r, rfl⟩ := List.exists_cons_of_ne_nil given
        exact Nat.succ_pos _
      have chars := length_textOf proper
      omega
    have ends : EndsBefore 0 [] := fun l member => absurd member (Option.not_mem_none l)
    have block := readBlock_fieldLines given distinct keys
      (fun f member => readsBack_of_isTidy (values f member)) room ends
    rw [List.append_nil] at block
    rw [read, written]
    simp only [any_isSpecial_textOf proper, Line.ofText_textOf proper, block]
    rfl

end Flotilla.Yaml
