import Flotilla.Proofs.Files.Disk
import Flotilla.Proofs.Files.Path

namespace Flotilla.Files.Disk
open Entry

theorem place_of_write {d d' : Disk} {path : String} {e : Entry} (h : d.write path e = .ok d') :
    ∃ parent last, d.Place path parent last ∧ d' = d.put (parent ++ [last]) e := by
  unfold write at h
  cases target : d.fileTarget path with
  | error why =>
    rw [target] at h
    cases h
  | ok l =>
    rw [target] at h
    obtain ⟨parent, last, place, rfl⟩ := place_of_fileTarget target
    exact ⟨parent, last, place, (Except.ok.inj h).symm⟩

section
variable {d d' : Disk} {path : String} {e : Entry} (written : d.write path e = .ok d')
include written

theorem write_stands : d.Stands d' := by
  obtain ⟨parent, last, place, rfl⟩ := place_of_write written
  exact place.put_stands

theorem entry?_write (plain : e.IsPlain) : entry? d' path = some e := by
  obtain ⟨parent, last, place, rfl⟩ := place_of_write written
  exact (place.write plain).2.2

theorem entry?_write_of_same {other : String} (same : d.entry? other = some e)
    (file : e.kind ≠ .directory) : entry? d' other = some e := by
  obtain ⟨l, located, there⟩ := entry?_eq_some_iff.mp same
  refine entry?_eq_some_iff.mpr ⟨l, (write_stands written).locate located, ?_⟩
  obtain ⟨parent, last, place, rfl⟩ := place_of_write written
  obtain ⟨above, found, isDirectory⟩ := place.above
  rcases at?_put_cases (c := e) found isDirectory (fun f there => (place.free f there).file) there with
    rfl | ⟨f, found', alike⟩
  · exact at?_put found
  · rw [eq_of_hollow file alike] at found'
    exact found'

end

theorem names_join {a b : String} (written : a ≠ "") (unfinished : a.toList.getLast? ≠ some '/')
    (relative : b.toList.head? ≠ some '/') : names (join a b) = names a ++ names b := by
  rw [join_below written unfinished relative, names, names, names, Text.splitOn, Text.splitOn,
    Text.splitOn, ← List.map_append, ← Text.splitChars_append]
  simp

theorem checkPath_of_append {a b : String} (written : a ≠ "") (h : checkPath (a ++ b) = .ok ()) :
    checkPath a = .ok () := by
  unfold checkPath at h ⊢
  split at h
  · cases h
  · next noNul =>
    split at h
    · cases h
    · split at h
      · cases h
      · next short =>
        have noNul' : ¬ hasNul a := by
          intro nul
          apply noNul
          rw [hasNul, List.contains_iff_mem] at nul ⊢
          simp [nul]
        have short' : ¬ a.utf8ByteSize ≥ pathLimit := by
          rw [String.utf8ByteSize_append] at short
          omega
        rw [if_neg noNul', if_neg (by simpa using written), if_neg short']

theorem start_append (d : Disk) {a : String} (written : a ≠ "") (b : String) :
    d.start (a ++ b) = d.start a := by
  have same : (a ++ b).startsWith "/" = a.startsWith "/" := by
    rw [Bool.eq_iff_iff, String.startsWith_string_iff, String.startsWith_string_iff]
    cases chars : a.toList with
    | nil => exact absurd (String.toList_eq_nil_iff.mp chars) written
    | cons c r => simp [chars, List.cons_prefix_cons]
  rw [start, start, same]

theorem follow_proper {root : Entry} {here : List String} {name : String} {l : List String}
    (proper : isDots name = false) (h : follow root here [name] = .ok l) : l = here ++ [name] := by
  obtain ⟨e, -, -, leads⟩ := follow_singleton.mp h
  have dots : ¬ (name = "" ∨ name = ".") ∧ name ≠ ".." := by grind [isDots]
  rw [if_neg dots.1, if_neg dots.2] at leads
  exact leads.2.2

theorem locate_of_join {d : Disk} {directory name : String} (written : directory ≠ "")
    (unfinished : directory.toList.getLast? ≠ some '/') (inner : '/' ∉ name.toList)
    (proper : isDots name = false) {l : List String} (h : d.locate (join directory name) = .ok l) :
    ∃ parent, d.locate directory = .ok parent ∧ l = parent ++ [name] := by
  have relative : name.toList.head? ≠ some '/' := fun slash =>
    inner (List.mem_of_head? slash)
  have single : names name = [name] := by
    rw [names, Text.splitOn, Text.splitChars_of_notMem inner]
    simp
  obtain ⟨⟨⟩, checked, followed⟩ := ok_of_bind h
  rw [names_join written unfinished relative, single, follow_append] at followed
  obtain ⟨parent, above, arrives⟩ := ok_of_bind followed
  rw [join_below written unfinished relative, String.append_assoc] at checked above
  rw [start_append d written] at above
  refine ⟨parent, ?_, ?_⟩
  · rw [locate, checkPath_of_append written checked]
    exact above
  · exact follow_proper proper arrives

theorem ne_nil_of_locate {d : Disk} {path last : String} (final : (names path).getLast? = some last)
    (proper : isDots last = false) {l : List String} (h : d.locate path = .ok l) : l ≠ [] := by
  obtain ⟨⟨⟩, -, followed⟩ := ok_of_bind h
  rw [names_eq_concat, final, follow_append] at followed
  obtain ⟨parent, -, arrives⟩ := ok_of_bind followed
  rw [follow_proper proper arrives]
  exact List.append_ne_nil_of_right_ne_nil _ (List.cons_ne_nil _ _)

def without (d : Disk) (location : List String) : Disk := { d with root := d.root.remove location }

/-- A path leads nowhere at or below a location, not even on its way. -/
def Avoids (d : Disk) (path : String) (location : List String) : Prop :=
  ∀ front, front <+: names path → ∀ l, follow d.root (d.start path) front = .ok l → ¬ location <+: l

section
variable {d : Disk} {location : List String} {e : Entry} (found : d.root.at? location = some e)
  (proper : location ≠ [])
include found proper

theorem without_stands : (d.without location).Stands d := ⟨.of_remove found proper, rfl⟩

omit proper in
theorem at?_without {l : List String} (apart : ¬ location <+: l) {f : Entry}
    (there : d.root.at? l = some f) :
    ∃ f', (d.without location).root.at? l = some f' ∧ f'.hollow = f.hollow := by
  have same := hollow_at?_remove found apart
  rw [there] at same
  exact Option.map_eq_some_iff.mp same

omit found in
theorem not_below_of_at?_without {l : List String} {f : Entry}
    (there : (d.without location).root.at? l = some f) : ¬ location <+: l := by
  intro below
  rw [without, at?_remove proper below] at there
  cases there

omit proper in
theorem follow_without {here l : List String} {ns : List String}
    (clear : ∀ front, front <+: ns → ∀ l, follow d.root here front = .ok l → ¬ location <+: l)
    (h : follow d.root here ns = .ok l) : follow (d.without location).root here ns = .ok l := by
  induction ns generalizing here with
  | nil => exact h
  | cons name r ih =>
    rw [follow_cons] at h ⊢
    obtain ⟨next, first, rest⟩ := ok_of_bind h
    have same : follow (d.without location).root here [name] = .ok next := by
      have apart := clear [name] (List.cons_prefix_cons.mpr ⟨rfl, List.nil_prefix⟩) next first
      rw [follow_singleton] at first ⊢
      obtain ⟨e, there, isDirectory, leads⟩ := first
      obtain ⟨e', there', alike⟩ := at?_without found (clear [] List.nil_prefix here rfl) there
      refine ⟨e', there', by rw [← kind_hollow, alike, kind_hollow, isDirectory], ?_⟩
      split at leads
      · rwa [if_pos ‹_›]
      · split at leads
        · rwa [if_neg ‹_›, if_pos ‹_›]
        · obtain ⟨short, present, rfl⟩ := leads
          obtain ⟨f, there⟩ := Option.isSome_iff_exists.mp present
          obtain ⟨f', there', -⟩ := at?_without found apart there
          rw [if_neg ‹_›, if_neg ‹_›]
          exact ⟨short, by rw [there']; rfl, rfl⟩
    rw [same]
    refine ih (fun front below l leads => ?_) rest
    refine clear (name :: front) (List.cons_prefix_cons.mpr ⟨rfl, below⟩) l ?_
    rw [follow_cons, first]
    exact leads

theorem avoids_of_locate {path : String} {l : List String} {f : Entry}
    (located : (d.without location).locate path = .ok l)
    (there : (d.without location).root.at? l = some f) : d.Avoids path location := by
  rintro front ⟨rest, cut⟩ l' leads
  obtain ⟨u, -, followed⟩ := ok_of_bind located
  rw [← cut, follow_append] at followed
  obtain ⟨m, above, below⟩ := ok_of_bind followed
  have leads' := follow_stands (without_stands found proper).root above
  obtain rfl : m = l' := Except.ok.inj (leads'.symm.trans leads)
  cases rest with
  | nil =>
    obtain rfl : m = l := Except.ok.inj below
    exact not_below_of_at?_without proper there
  | cons name r =>
    rw [follow_cons] at below
    obtain ⟨next, first, -⟩ := ok_of_bind below
    obtain ⟨e, present, -⟩ := follow_singleton.mp first
    exact not_below_of_at?_without proper present

/-- A file is found as before if its path avoids what has been removed, and else not at all. -/
theorem entry?_without_iff {path : String} {f : Entry} (file : f.kind ≠ .directory) :
    entry? (d.without location) path = some f ↔ d.entry? path = some f ∧ d.Avoids path location := by
  simp only [entry?_eq_some_iff]
  constructor
  · rintro ⟨l, located, there⟩
    have apart := not_below_of_at?_without proper there
    have located' := (without_stands found proper).locate located
    have same := hollow_at?_remove found apart
    obtain ⟨f', there', alike⟩ :=
      Option.map_eq_some_iff.mp (same.symm.trans (congrArg (Option.map hollow) there))
    rw [eq_of_hollow file alike] at there'
    exact ⟨⟨l, located', there'⟩, avoids_of_locate found proper located there⟩
  · rintro ⟨⟨l, located, there⟩, avoids⟩
    obtain ⟨⟨⟩, checked, followed⟩ := ok_of_bind located
    obtain ⟨f', there', alike⟩ := at?_without found (avoids _ List.prefix_rfl l followed) there
    rw [eq_of_hollow file alike] at there'
    refine ⟨l, ?_, there'⟩
    rw [locate, checked]
    exact follow_without found avoids followed

end

end Flotilla.Files.Disk
