import Flotilla.Files.Path
import Flotilla.Proofs.Text.Pieces

namespace Flotilla.Files

theorem startsWith_slash {p : String} : p.startsWith "/" = true ↔ p.toList.head? = some '/' := by
  rw [String.startsWith_string_iff]
  cases p.toList <;> simp [eq_comm]

theorem endsWith_slash {p : String} : p.endsWith "/" = true ↔ p.toList.getLast? = some '/' := by
  rw [← String.endsWith_toSlice, String.Slice.endsWith_string_iff, String.copy_toSlice]
  constructor
  · rintro ⟨front, parts⟩
    simp [← parts]
  · intro ends
    obtain ⟨front, parts⟩ := List.getLast?_eq_some_iff.mp ends
    exact ⟨front, by simp [parts]⟩

theorem join_below {a b : String} (written : a ≠ "") (unfinished : a.toList.getLast? ≠ some '/')
    (relative : b.toList.head? ≠ some '/') : join a b = a ++ "/" ++ b := by
  have inner : ¬ b.startsWith "/" := fun starts => relative (startsWith_slash.mp starts)
  have outer : ¬ (a.isEmpty || a.endsWith "/") := by
    rw [Bool.or_eq_true, not_or]
    exact ⟨by simpa using written, fun ends => unfinished (endsWith_slash.mp ends)⟩
  rw [join, if_neg inner, if_neg outer]

theorem join_ends (a b : String) : ∃ front, (join a b).toList = front ++ b.toList := by
  unfold join
  split
  · exact ⟨[], rfl⟩
  · split
    · exact ⟨a.toList, String.toList_append⟩
    · exact ⟨(a ++ "/").toList, String.toList_append⟩

def lead (a : String) : String := if a.isEmpty || a.endsWith "/" then a else a ++ "/"

theorem join_eq_lead (a : String) {b : String} (relative : b.toList.head? ≠ some '/') :
    join a b = lead a ++ b := by
  have inner : ¬ b.startsWith "/" := fun starts => relative (startsWith_slash.mp starts)
  rw [join, if_neg inner, lead]
  split <;> rfl

theorem relative_of_notMem {n : String} (inner : '/' ∉ n.toList) : n.toList.head? ≠ some '/' :=
  fun first => inner (List.mem_of_head? first)

theorem lead_eq {a : String} (written : a ≠ "") :
    ∃ head, lead a = head ++ "/" ∧
      (a.toList.getLast? ≠ some '/' ∧ head = a ∨ a = head ++ "/") := by
  have filled : a.isEmpty = false := by simpa using written
  rw [lead, filled, Bool.false_or]
  split
  · next ends =>
    obtain ⟨front, parts⟩ := List.getLast?_eq_some_iff.mp (endsWith_slash.mp ends)
    have same : a = .ofList front ++ "/" := String.toList_inj.mp (by simpa using parts)
    exact ⟨_, same, .inr same⟩
  · next unfinished => exact ⟨a, rfl, .inl ⟨fun ends => unfinished (endsWith_slash.mpr ends), rfl⟩⟩

theorem splitLast_join {a n : String} (inner : '/' ∉ n.toList) {head : String}
    (leads : lead a = head ++ "/") : Text.splitLast '/' (join a n) = some (head, n) := by
  apply Text.splitLast_eq _ inner
  rw [join_eq_lead a (relative_of_notMem inner), leads]
  simp

theorem baseName_join {n : String} (inner : '/' ∉ n.toList) (a : String) : baseName (join a n) = n := by
  rw [baseName]
  by_cases written : a = ""
  · subst written
    rw [join_eq_lead "" (relative_of_notMem inner), show lead "" ++ n = n by simp [lead],
      Text.splitLast_of_notMem inner]
  · obtain ⟨head, leads, -⟩ := lead_eq written
    rw [splitLast_join inner leads]

theorem directoryName_join_eq {n : String} (inner : '/' ∉ n.toList) (a : String) :
    directoryName (join a n) = directoryName (lead a) := by
  by_cases written : a = ""
  · subst written
    rw [join_eq_lead "" (relative_of_notMem inner), show lead "" = "" from rfl, String.empty_append,
      directoryName, directoryName, Text.splitLast_of_notMem inner]
    rfl
  · obtain ⟨head, leads, -⟩ := lead_eq written
    have whole : Text.splitLast '/' (lead a) = some (head, "") :=
      Text.splitLast_eq (by simp [leads]) (by simp)
    rw [directoryName, directoryName, splitLast_join inner leads, whole]

/-- A directory as it is taken from a path: no slash stands at its end, unless there is nothing
else. -/
def IsBare (p : String) : Prop := p.toList.getLast? ≠ some '/' ∨ ∀ c ∈ p.toList, c = '/'

theorem directoryName_lead {a : String} (bare : IsBare a) : directoryName (lead a) = a := by
  by_cases written : a = ""
  · subst written
    rfl
  · obtain ⟨head, leads, same⟩ := lead_eq written
    have whole : Text.splitLast '/' (lead a) = some (head, "") :=
      Text.splitLast_eq (by simp [leads]) (by simp)
    rw [directoryName, whole]
    dsimp only
    rcases same with ⟨unfinished, rfl⟩ | same
    · rw [Text.dropTrailing_of_ends unfinished, if_neg (by simpa using written)]
    · have slashes : ∀ c ∈ head.toList, c = '/' := by
        rcases bare with unfinished | slashes
        · exact absurd (by simp [same]) unfinished
        · exact fun c member => slashes c (by simp [same, member])
      rw [Text.dropTrailing_eq_empty_iff.mpr slashes, if_pos (by rfl), same]

theorem directoryName_isBare (p : String) : IsBare (directoryName p) := by
  rw [directoryName]
  by_cases slash : '/' ∈ p.toList
  · obtain ⟨a, b, parts, -⟩ := Text.splitLast_of_mem slash
    rw [parts]
    dsimp only
    split
    · next empty =>
      have := Text.dropTrailing_eq_empty_iff.mp (String.isEmpty_iff.mp empty)
      exact .inr (by simpa [or_imp, forall_and] using this)
    · exact .inl (Text.getLast?_dropTrailing _ _)
  · rw [Text.splitLast_of_notMem slash]
    exact .inr (by simp)

theorem join_eq_iff {a b n m : String} (inner : '/' ∉ n.toList) (inner' : '/' ∉ m.toList) :
    join a n = join b m ↔ lead a = lead b ∧ n = m := by
  constructor
  · intro same
    have names : n = m := by rw [← baseName_join inner a, same, baseName_join inner']
    subst names
    rw [join_eq_lead a (relative_of_notMem inner), join_eq_lead b (relative_of_notMem inner),
      ← String.toList_inj, String.toList_append, String.toList_append,
      List.append_cancel_right_eq, String.toList_inj] at same
    exact ⟨same, rfl⟩
  · rintro ⟨leads, rfl⟩
    rw [join_eq_lead a (relative_of_notMem inner), join_eq_lead b (relative_of_notMem inner), leads]

theorem lead_inj {a b : String} (bare : IsBare a) (bare' : IsBare b) (h : lead a = lead b) : a = b := by
  rw [← directoryName_lead bare, h, directoryName_lead bare']

theorem append_slash_inj {a b : String} (h : a ++ "/" = b ++ "/") : a = b := by
  have := congrArg String.toList h
  rw [String.toList_append, String.toList_append, List.append_cancel_right_eq] at this
  exact String.toList_inj.mp this

/-- What is bare leads its names as another path does only if that is the same or ends with one more
slash. -/
theorem eq_or_eq_of_lead {a b : String} (bare : IsBare b) (leads : lead b = lead a) :
    a = b ∨ b ≠ "" ∧ a = b ++ "/" := by
  rw [lead, lead] at leads
  split at leads
  · next ended =>
    split at leads
    · exact .inl leads.symm
    · next open' =>
      subst leads
      simp only [Bool.or_eq_true, not_or, endsWith_slash] at open'
      rcases bare with unfinished | slashes
      · exact absurd (by simp) unfinished
      · cases last : a.toList.getLast? with
        | none => simp_all
        | some c =>
          have := slashes c (by simp [List.mem_of_getLast? last])
          exact absurd (this ▸ last) open'.2
  · next open' =>
    simp only [Bool.or_eq_true, not_or, String.isEmpty_iff] at open'
    split at leads
    · exact .inr ⟨open'.1, leads.symm⟩
    · exact .inl (append_slash_inj leads).symm

theorem notMem_baseName (p : String) : '/' ∉ (baseName p).toList := by
  rw [baseName]
  by_cases slash : '/' ∈ p.toList
  · obtain ⟨a, b, parts, -, last⟩ := Text.splitLast_of_mem slash
    rw [parts]
    exact last
  · rw [Text.splitLast_of_notMem slash]
    exact slash

theorem mem_directoryName {p : String} {c : Char} (h : c ∈ (directoryName p).toList) :
    c ∈ p.toList := by
  rw [directoryName] at h
  by_cases slash : '/' ∈ p.toList
  · obtain ⟨a, b, parts, whole, -⟩ := Text.splitLast_of_mem slash
    rw [parts] at h
    dsimp only at h
    rw [whole]
    split at h
    · rw [String.toList_append, List.mem_append] at h
      exact List.mem_append.mpr (h.imp id fun last => by simp_all)
    · exact List.mem_append_left _ (Text.mem_dropTrailing h)
  · rw [Text.splitLast_of_notMem slash] at h
    cases h

theorem mem_baseName {p : String} {c : Char} (h : c ∈ (baseName p).toList) : c ∈ p.toList := by
  rw [baseName] at h
  by_cases slash : '/' ∈ p.toList
  · obtain ⟨a, b, parts, whole, -⟩ := Text.splitLast_of_mem slash
    rw [parts] at h
    rw [whole]
    exact List.mem_append_right _ (List.mem_cons_of_mem _ h)
  · rw [Text.splitLast_of_notMem slash] at h
    exact h

theorem mem_join {a n : String} (inner : '/' ∉ n.toList) {c : Char} (h : c ∈ (join a n).toList) :
    c ∈ a.toList ∨ c = '/' ∨ c ∈ n.toList := by
  rw [join_eq_lead a (relative_of_notMem inner), lead] at h
  split at h <;> grind [String.toList_append]

theorem join_isBare {n : String} (inner : '/' ∉ n.toList) (written : n ≠ "") (a : String) :
    IsBare (join a n) := by
  rw [join_eq_lead a (relative_of_notMem inner)]
  refine .inl fun ends => ?_
  obtain ⟨r, c, last⟩ := (List.eq_nil_or_concat n.toList).resolve_left (by simpa using written)
  rw [List.concat_eq_append] at last
  rw [String.toList_append, last, ← List.append_assoc, List.getLast?_concat] at ends
  rw [last, Option.some.inj ends] at inner
  exact inner (by simp)

theorem length_lt_join {n : String} (inner : '/' ∉ n.toList) (written : n ≠ "") (a : String) :
    a.length < (join a n).length := by
  have positive : 0 < n.length := by
    rw [← String.length_toList]
    exact List.length_pos_iff.mpr (by simpa using written)
  rw [join_eq_lead a (relative_of_notMem inner), lead]
  split <;> simp <;> omega

theorem baseName_ne_empty {p : String} (bare : IsBare p) {c : Char} (other : c ≠ '/')
    (member : c ∈ p.toList) : baseName p ≠ "" := by
  rw [baseName]
  by_cases slash : '/' ∈ p.toList
  · obtain ⟨a, b, parts, whole, -⟩ := Text.splitLast_of_mem slash
    rw [parts]
    rintro rfl
    rcases bare with unfinished | slashes
    · exact unfinished (by simp [whole])
    · exact other (slashes c member)
  · rw [Text.splitLast_of_notMem slash]
    rintro rfl
    cases member

theorem join_le_join_iff (a : String) {n m : String} (inner : '/' ∉ n.toList) (inner' : '/' ∉ m.toList) :
    join a n ≤ join a m ↔ n ≤ m := by
  rw [join_eq_lead a (relative_of_notMem inner), join_eq_lead a (relative_of_notMem inner'),
    ← String.not_lt, ← String.not_lt]
  refine not_congr ?_
  change (lead a ++ m).toList < (lead a ++ n).toList ↔ m.toList < n.toList
  rw [String.toList_append, String.toList_append, Text.append_lt_append_iff]

end Flotilla.Files
