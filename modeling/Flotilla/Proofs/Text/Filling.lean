import Mathlib.Data.List.Infix

namespace Flotilla.Text

/-- The text with all markers filled in; `skip` is what is left of a marker that has been. -/
def fillChars (marker content : List Char) : Nat → List Char → List Char
  | _, [] => []
  | skip + 1, _ :: r => fillChars marker content skip r
  | 0, c :: r =>
    if marker.isPrefixOf (c :: r) then content ++ fillChars marker content (marker.length - 1) r
    else c :: fillChars marker content 0 r

def fill (marker content text : String) : String :=
  String.ofList (fillChars marker.toList content.toList 0 text.toList)

def IsMarked (marker text : String) : Prop := marker.toList <:+: text.toList

instance (marker text : String) : Decidable (IsMarked marker text) :=
  inferInstanceAs (Decidable (_ <:+: _))

variable {marker content cs : List Char} {x : Char}

theorem fillChars_skip (skip : Nat) (cs : List Char) :
    fillChars marker content skip cs = fillChars marker content 0 (cs.drop skip) := by
  induction cs generalizing skip with
  | nil => cases skip <;> simp [fillChars]
  | cons c r ih =>
    cases skip with
    | zero => rfl
    | succ skip => exact ih skip

theorem fillChars_marker (h : marker ≠ []) (cs : List Char) :
    fillChars marker content 0 (marker ++ cs) = content ++ fillChars marker content 0 cs := by
  obtain ⟨c, r, rfl⟩ := List.exists_cons_of_ne_nil h
  have here : (c :: r).isPrefixOf (c :: (r ++ cs)) := List.isPrefixOf_iff_prefix.mpr ⟨cs, rfl⟩
  rw [List.cons_append, fillChars, if_pos here, fillChars_skip]
  simp

theorem fillChars_eq_self (h : ¬ marker <:+: cs) : fillChars marker content 0 cs = cs := by
  induction cs with
  | nil => rfl
  | cons c r ih =>
    rw [List.infix_cons_iff, not_or] at h
    rw [fillChars, if_neg (by simpa using h.1), ih h.2]

theorem fill_marker {marker : String} (h : marker ≠ "") (content text : String) :
    fill marker content (marker ++ text) = content ++ fill marker content text := by
  have some : marker.toList ≠ [] := fun none => h (String.toList_inj.mp none)
  simp [fill, fillChars_marker some]

theorem fill_eq_self {marker text : String} (h : ¬ IsMarked marker text) (content : String) :
    fill marker content text = text := by
  rw [fill, fillChars_eq_self h, String.ofList_toList]

theorem count_fillChars_le (new : x ∉ content) (skip : Nat) (cs : List Char) :
    (fillChars marker content skip cs).count x ≤ cs.count x := by
  induction cs generalizing skip with
  | nil => simp [fillChars]
  | cons c r ih =>
    cases skip with
    | succ skip => exact Nat.le_trans (ih skip) List.count_le_count_cons
    | zero =>
      rw [fillChars]
      split
      · rw [List.count_append, List.count_eq_zero_of_not_mem new, Nat.zero_add]
        exact Nat.le_trans (ih _) List.count_le_count_cons
      · rw [List.count_cons, List.count_cons]
        exact Nat.add_le_add_right (ih 0) _

/-- What the marker has and its content has not is lost with every marker. -/
theorem count_fillChars_lt (old : x ∈ marker) (new : x ∉ content) (h : marker <:+: cs) :
    (fillChars marker content 0 cs).count x < cs.count x := by
  induction cs with
  | nil => simp [List.infix_nil.mp h] at old
  | cons c r ih =>
    by_cases here : marker <+: c :: r
    · obtain ⟨rest, whole⟩ := here
      have some : 0 < marker.count x := List.count_pos_iff.mpr old
      have less : (fillChars marker content 0 rest).count x ≤ rest.count x :=
        count_fillChars_le new 0 rest
      rw [← whole, fillChars_marker (List.ne_nil_of_mem old), List.count_append, List.count_append,
        List.count_eq_zero_of_not_mem new]
      omega
    · have later := (List.infix_cons_iff.mp h).resolve_left here
      rw [fillChars, if_neg (by simpa using here), List.count_cons, List.count_cons]
      exact Nat.add_lt_add_right (ih later) _

theorem count_fill_lt {marker content text : String} (old : x ∈ marker.toList)
    (new : x ∉ content.toList) (h : IsMarked marker text) :
    (fill marker content text).toList.count x < text.toList.count x := by
  rw [fill, String.toList_ofList]
  exact count_fillChars_lt old new h

theorem prefix_of_append_cons (other : x ∉ marker) {a b : List Char} (h : marker <+: a ++ x :: b) :
    marker <+: a := by
  have upTo : a ++ [x] <+: a ++ x :: b := ⟨b, by simp⟩
  obtain within | beyond := List.prefix_or_prefix_of_prefix h upTo
  · refine (List.prefix_concat_iff.mp within).resolve_left fun all => other ?_
    simp [all]
  · exact absurd (beyond.subset (by simp)) other

theorem infix_of_append_cons (other : x ∉ marker) {a b : List Char} (h : marker <:+: a ++ x :: b) :
    marker <:+: a ∨ marker <:+: b := by
  induction a with
  | nil =>
    obtain here | later := List.infix_cons_iff.mp h
    · exact .inl (prefix_of_append_cons (a := []) other here).isInfix
    · exact .inr later
  | cons c r ih =>
    obtain here | later := List.infix_cons_iff.mp h
    · exact .inl (prefix_of_append_cons (a := c :: r) other here).isInfix
    · exact (ih later).imp_left (List.infix_cons ·)

end Flotilla.Text
