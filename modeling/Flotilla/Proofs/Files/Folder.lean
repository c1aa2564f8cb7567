import Flotilla.Proofs.Files.Sound
import Flotilla.Proofs.Files.Written

namespace Flotilla.Files.Disk
open Entry

/-- A directory by a path that is never empty. -/
def folder (path : String) : String := if path.isEmpty then "." else path

theorem folder_of_ne {path : String} (written : path ≠ "") : folder path = path := by
  rw [folder, if_neg (by simpa using written)]

theorem isDots_eq_false_iff {name : String} :
    isDots name = false ↔ ¬ (name = "" ∨ name = ".") ∧ name ≠ ".." := by
  simp [isDots]

theorem names_of_notMem {n : String} (inner : '/' ∉ n.toList) : names n = [n] := by
  rw [names, Text.splitOn, Text.splitChars_of_notMem inner]
  simp

theorem names_slash (a b : String) : names (a ++ "/" ++ b) = names a ++ names b := by
  rw [names, names, names, Text.splitOn, Text.splitOn, Text.splitOn, ← List.map_append,
    ← Text.splitChars_append]
  simp

theorem hasNul_iff {p : String} : hasNul p = true ↔ '\x00' ∈ p.toList := by
  rw [hasNul, List.contains_iff_mem]

theorem hasNul_join {a n : String} (inner : '/' ∉ n.toList) (clean : hasNul a = false)
    (clean' : hasNul n = false) : hasNul (join a n) = false := by
  rw [← Bool.not_eq_true, hasNul_iff] at clean clean' ⊢
  intro member
  rcases mem_join inner member with old | slash | new
  · exact clean old
  · cases slash
  · exact clean' new

theorem checkPath_eq_ok_iff {path : String} : checkPath path = .ok () ↔
    hasNul path = false ∧ path ≠ "" ∧ path.utf8ByteSize < pathLimit := by
  unfold checkPath
  split
  · simp_all
  · split
    · simp_all
    · split
      · simp_all
      · simp_all

theorem isName_lastName {path : String} (checked : checkPath path = .ok ())
    (short : isTooLong (lastName path) = false) (dots : isDots (lastName path) = false) :
    isName (lastName path) := by
  have clean : '\x00' ∉ path.toList := by
    rw [← hasNul_iff, (checkPath_eq_ok_iff.mp checked).1]
    exact Bool.false_ne_true
  have from_path : ∀ c ∈ (lastName path).toList, c ∈ path.toList ∧ c ≠ '/' := by
    intro c inside
    cases last : (names (Text.dropTrailing '/' path)).getLast? with
    | none => simp [lastName, last] at inside
    | some name =>
      rw [lastName, last, Option.getD_some] at inside
      obtain ⟨piece, listed, rfl⟩ := List.mem_map.mp (List.mem_of_getLast? last)
      rw [String.toList_ofList] at inside
      exact (Text.mem_of_mem_splitChars listed inside).imp_left Text.mem_dropTrailing
  refine isName_iff.mpr ⟨dots, short, ?_, fun slash => (from_path _ slash).2 rfl⟩
  exact Bool.eq_false_iff.mpr fun nul => clean (from_path _ (hasNul_iff.mp nul)).1

theorem makeDirectory_sound {d d' : Disk} {path : String} (h : d.makeDirectory path = .ok d')
    (sound : d.root.IsSound) : d'.root.IsSound := by
  unfold makeDirectory at h
  split at h
  · cases h
  · next t target =>
    split at h
    · cases h
    · next new =>
      obtain ⟨checked, parent, e, -, -, -, short, rfl⟩ := target_eq_ok.mp target
      rw [Bool.not_eq_true, Bool.or_eq_false_iff] at new
      obtain rfl := Except.ok.inj h
      dsimp only at new ⊢
      rw [new.1, if_neg Bool.false_ne_true]
      exact sound.put (isName_lastName checked short new.1) (.directory .nil nofun nofun)

theorem makeDirectories_sound {d : Disk} (path : String) (sound : d.root.IsSound) :
    (d.makeDirectories path).2.root.IsSound :=
  makeDirectories_of_step (fun made sound => makeDirectory_sound made sound) path sound

theorem checkPath_join_iff {a n : String} (proper : isName n) (clean : hasNul a = false) :
    checkPath (join a n) = .ok () ↔ (join a n).utf8ByteSize < pathLimit := by
  obtain ⟨dots, -, clean', inner⟩ := isName_iff.mp proper
  rw [checkPath_eq_ok_iff, and_iff_right (hasNul_join inner clean clean'), and_iff_right]
  intro empty
  have := length_lt_join inner (ne_empty_of_proper dots) a
  rw [empty] at this
  cases this

theorem follow_still (root : Entry) (here : List String) {still : String}
    (same : still = "" ∨ still = ".") (name : String) :
    follow root here [still, name] = follow root here [name] := by
  have dots : (still == "" || still == ".") = true := by simpa using same
  cases found : root.at? here with
  | none => simp only [follow, found]
  | some e =>
    rw [follow, found]
    dsimp only
    rw [if_pos dots]
    split
    · next file => simp only [follow, found, if_pos file]
    · rfl

theorem eq_of_follow_still {root : Entry} {here l : List String} {still : String}
    (same : still = "" ∨ still = ".") (h : follow root here [still] = .ok l) : l = here := by
  obtain ⟨e, -, -, leads⟩ := follow_singleton.mp h
  rwa [if_pos same] at leads

theorem follow_of_at? {root : Entry} {here : List String} {name : String}
    (dots : isDots name = false) (short : isTooLong name = false) {c : Entry}
    (there : root.at? (here ++ [name]) = some c) :
    follow root here [name] = .ok (here ++ [name]) := by
  obtain ⟨other, down⟩ := isDots_eq_false_iff.mp dots
  obtain ⟨e, above, isDirectory⟩ := kind_of_at?_append there
  refine follow_singleton.mpr ⟨e, above, isDirectory, ?_⟩
  rw [if_neg other, if_neg down]
  exact ⟨short, by rw [there]; rfl, rfl⟩

theorem checkPath_folder {a b : String} (checked : checkPath (lead a ++ b) = .ok ()) :
    checkPath (folder a) = .ok () := by
  by_cases written : a = ""
  · subst written
    rfl
  · rw [folder_of_ne written]
    rw [lead] at checked
    split at checked
    · exact checkPath_of_append written checked
    · rw [String.append_assoc] at checked
      exact checkPath_of_append written checked

section
variable {d : Disk} {a n : String} (inner : '/' ∉ n.toList)
include inner

/-- The names before the last one are those of the directory, but for a dot that stands for it or what
is empty at its end. -/
theorem names_join_cases (d : Disk) (a : String) :
    ∃ ns, names (join a n) = ns ++ [n] ∧ d.start (join a n) = d.start (folder a) ∧
      (names (folder a) = ns ∨ ∃ still, (still = "" ∨ still = ".") ∧
        names (folder a) = ns ++ [still]) := by
  have relative := relative_of_notMem inner
  rw [join_eq_lead a relative]
  by_cases written : a = ""
  · subst written
    refine ⟨[], ?_, ?_, .inr ⟨".", .inr rfl, by decide +kernel⟩⟩
    · rw [show lead "" ++ n = n by simp [lead], names_of_notMem inner, List.nil_append]
    · have : ¬ n.startsWith "/" := fun starts => relative (startsWith_slash.mp starts)
      rw [show lead "" ++ n = n by simp [lead], Disk.start, Disk.start, if_neg this,
        if_neg (by decide +kernel)]
  · obtain ⟨head, leads, same⟩ := lead_eq written
    rw [folder_of_ne written, leads]
    refine ⟨names head, by rw [names_slash, names_of_notMem inner], ?_⟩
    rcases same with ⟨-, rfl⟩ | rfl
    · exact ⟨by rw [String.append_assoc, start_append d written], .inl rfl⟩
    · refine ⟨start_append d written n, .inr ⟨"", .inl rfl, ?_⟩⟩
      rw [show head ++ "/" = head ++ "/" ++ "" by simp, names_slash]
      rfl

theorem follow_join (d : Disk) (a : String) :
    follow d.root (d.start (join a n)) (names (join a n)) =
      follow d.root (d.start (folder a)) (names (folder a)) >>= fun l => follow d.root l [n] := by
  obtain ⟨ns, split, start, same | ⟨still, stays, same⟩⟩ := names_join_cases inner d a
  · rw [split, start, same, follow_append]
  · rw [split, start, same, ← follow_append, List.append_assoc, follow_append, follow_append]
    exact bind_congr fun l => (follow_still d.root l stays n).symm

theorem locate_folder_of_checked (checked : checkPath (join a n) = .ok ()) :
    d.locate (folder a) = follow d.root (d.start (folder a)) (names (folder a)) := by
  rw [join_eq_lead a (relative_of_notMem inner)] at checked
  rw [locate, checkPath_folder checked]
  rfl

theorem follow_of_isPresent (there : d.isPresent (join a n) = true) :
    ∃ here l, d.locate (folder a) = .ok here ∧ follow d.root here [n] = .ok l := by
  obtain ⟨e, found⟩ := Option.isSome_iff_exists.mp there
  obtain ⟨l, located, -⟩ := entry?_eq_some_iff.mp found
  obtain ⟨u, checked, followed⟩ := ok_of_bind located
  rw [follow_join inner] at followed
  obtain ⟨here, above, arrives⟩ := ok_of_bind followed
  exact ⟨here, l, by rwa [locate_folder_of_checked inner checked], arrives⟩

theorem isName_of_join (dots : isDots n = false) (clean : hasNul n = false)
    (there : d.isPresent (join a n) = true) : isName n = true := by
  obtain ⟨here, l, -, arrives⟩ := follow_of_isPresent inner there
  obtain ⟨e, -, -, leads⟩ := follow_singleton.mp arrives
  obtain ⟨other, down⟩ := isDots_eq_false_iff.mp dots
  rw [if_neg other, if_neg down] at leads
  exact isName_iff.mpr ⟨dots, leads.1, clean, inner⟩

end

section
variable {d : Disk}

theorem isDirectory_iff {p : String} :
    d.isDirectory p = true ↔ ∃ e, d.entry? p = some e ∧ e.kind = .directory := by
  rw [Disk.isDirectory]
  cases d.entry? p <;> simp [Entry.isDirectory_iff]

theorem isClosed_iff {p : String} :
    d.isClosed p = true ↔ ∃ e, d.entry? p = some e ∧ e.kind = .closed := by
  rw [Disk.isClosed]
  cases d.entry? p <;> simp [Entry.isClosed_iff]

theorem isPresent_of_isDirectory {p : String} (there : d.isDirectory p = true) :
    d.isPresent p = true := by
  obtain ⟨e, found, -⟩ := isDirectory_iff.mp there
  rw [isPresent, found]
  rfl

theorem checkPath_of_isPresent {p : String} (there : d.isPresent p = true) :
    checkPath p = .ok () := by
  obtain ⟨e, found⟩ := Option.isSome_iff_exists.mp there
  obtain ⟨l, located, -⟩ := entry?_eq_some_iff.mp found
  obtain ⟨⟨⟩, checked, -⟩ := ok_of_bind located
  exact checked

theorem isDirectory_of_join {a n : String} (inner : '/' ∉ n.toList)
    (there : d.isPresent (join a n) = true) : d.isDirectory (folder a) = true := by
  obtain ⟨here, l, located, arrives⟩ := follow_of_isPresent inner there
  obtain ⟨e, found, isDirectory, -⟩ := follow_singleton.mp arrives
  exact isDirectory_iff.mpr ⟨e, entry?_eq_some_iff.mpr ⟨here, located, found⟩, isDirectory⟩

section
variable {a n : String} (proper : isName n) (checked : checkPath (join a n) = .ok ())
include proper checked

theorem locate_join_iff {l : List String} : d.locate (join a n) = .ok l ↔
    ∃ here, d.locate (folder a) = .ok here ∧ l = here ++ [n] ∧ (d.root.at? l).isSome := by
  obtain ⟨dots, short, -, inner⟩ := isName_iff.mp proper
  rw [locate_folder_of_checked inner checked, locate, checked]
  change follow _ _ _ = _ ↔ _
  rw [follow_join inner]
  constructor
  · intro followed
    obtain ⟨here, above, arrives⟩ := ok_of_bind followed
    obtain rfl := follow_proper dots arrives
    refine ⟨here, above, rfl, ?_⟩
    obtain ⟨e, found, isDirectory, leads⟩ := follow_singleton.mp arrives
    obtain ⟨other, down⟩ := isDots_eq_false_iff.mp dots
    rw [if_neg other, if_neg down] at leads
    exact leads.2.1
  · rintro ⟨here, above, rfl, present⟩
    obtain ⟨c, there⟩ := Option.isSome_iff_exists.mp present
    rw [above]
    exact follow_of_at? dots short there

theorem entry?_join : d.entry? (join a n) = (d.entry? (folder a)).bind (·.child? n) := by
  apply Option.ext
  intro c
  rw [entry?_eq_some_iff, Option.bind_eq_some_iff]
  simp only [locate_join_iff proper checked, entry?_eq_some_iff]
  constructor
  · rintro ⟨_, ⟨here, above, rfl, -⟩, there⟩
    rw [at?_concat] at there
    obtain ⟨e, found, child⟩ := Option.bind_eq_some_iff.mp there
    exact ⟨e, ⟨here, above, found⟩, child⟩
  · rintro ⟨e, ⟨here, above, found⟩, child⟩
    have there : d.root.at? (here ++ [n]) = some c := by rw [at?_concat, found]; exact child
    exact ⟨here ++ [n], ⟨here, above, rfl, by rw [there]; rfl⟩, there⟩

/-- A name in a directory is the place of a file, unless there is a directory of that name or what is
there is closed. -/
theorem place_join {here : List String} (located : d.locate (folder a) = .ok here)
    (there : d.isDirectory (folder a) = true) (free : d.isDirectory (join a n) = false)
    (accessible : d.isClosed (join a n) = false) : d.Place (join a n) here n := by
  obtain ⟨dots, short, -, inner⟩ := isName_iff.mp proper
  obtain ⟨ns, split, start, names⟩ := names_join_cases inner d a
  have front : (Disk.names (join a n)).dropLast = ns := by rw [split, List.dropLast_concat]
  obtain ⟨e, found, isDirectory⟩ := isDirectory_iff.mp there
  have below : d.root.at? here = some e := by
    obtain ⟨l, located', below⟩ := entry?_eq_some_iff.mp found
    obtain rfl := Except.ok.inj (located'.symm.trans located)
    exact below
  rw [locate_folder_of_checked inner checked] at located
  refine ⟨checked, by rw [front, split], ?_, ⟨e, below, isDirectory⟩, ⟨dots, short⟩, ?_⟩
  · rw [front, start]
    rcases names with same | ⟨still, stays, same⟩
    · rwa [same] at located
    · rw [same, follow_append] at located
      obtain ⟨l, followed, stay⟩ := ok_of_bind located
      rwa [eq_of_follow_still stays stay]
  · intro f found'
    have leads : d.entry? (join a n) = some f := by
      rw [entry?_join proper checked, found]
      rwa [at?_concat, below] at found'
    exact ⟨fun kind => absurd (isDirectory_iff.mpr ⟨f, leads, kind⟩) (by simp [free]),
      fun kind => absurd (isClosed_iff.mpr ⟨f, leads, kind⟩) (by simp [accessible])⟩

end

theorem Place.of_join {a n : String} (inner : '/' ∉ n.toList) {parent : List String} {last : String}
    (h : d.Place (join a n) parent last) : last = n ∧ d.locate (folder a) = .ok parent := by
  obtain ⟨ns, split, start, names⟩ := names_join_cases inner d a
  have front : (Disk.names (join a n)).dropLast = ns := by rw [split, List.dropLast_concat]
  have followed := h.followed
  rw [front, start] at followed
  refine ⟨?_, ?_⟩
  · have := h.getLast?
    rw [split, List.getLast?_concat] at this
    exact (Option.some.inj this).symm
  · rw [locate_folder_of_checked inner h.checked]
    rcases names with same | ⟨still, stays, same⟩
    · rwa [same]
    · rw [same, follow_append, followed]
      obtain ⟨e, found, isDirectory⟩ := h.above
      exact follow_singleton.mpr ⟨e, found, isDirectory, by rw [if_pos stays]⟩

theorem isDirectory_join_iff {a n : String} (proper : isName n) {e : Entry}
    (found : d.entry? a = some e) : d.isDirectory (join a n) = true ↔
      (join a n).utf8ByteSize < pathLimit ∧ ∃ c, e.child? n = some c ∧ c.kind = .directory := by
  have checked := checkPath_of_isPresent (d := d) (p := a) (by rw [isPresent, found]; rfl)
  obtain ⟨clean, written, -⟩ := checkPath_eq_ok_iff.mp checked
  rw [← checkPath_join_iff proper clean, isDirectory_iff]
  constructor
  · rintro ⟨c, there, isDirectory⟩
    have checked' := checkPath_of_isPresent (d := d) (p := join a n) (by rw [isPresent, there]; rfl)
    rw [entry?_join proper checked', folder_of_ne written, found] at there
    exact ⟨checked', c, there, isDirectory⟩
  · rintro ⟨checked', c, child, isDirectory⟩
    refine ⟨c, ?_, isDirectory⟩
    rw [entry?_join proper checked', folder_of_ne written, found]
    exact child

theorem locate_slash {b : String} (written : b ≠ "") {l : List String}
    (h : d.locate (b ++ "/") = .ok l) : d.locate b = .ok l := by
  obtain ⟨⟨⟩, checked, followed⟩ := ok_of_bind h
  rw [start_append d written, show b ++ "/" = b ++ "/" ++ "" by simp, names_slash,
    follow_append] at followed
  obtain ⟨here, above, stays⟩ := ok_of_bind followed
  rw [locate, checkPath_of_append written checked, eq_of_follow_still (.inl rfl) stays]
  exact above

theorem entry?_folder_of_lead {a b : String} (bare : IsBare b) (leads : lead b = lead a)
    (there : d.isDirectory (folder a) = true) : d.entry? (folder b) = d.entry? (folder a) := by
  rcases eq_or_eq_of_lead bare leads with rfl | ⟨written, rfl⟩
  · rfl
  · have slashed : folder (b ++ "/") = b ++ "/" := folder_of_ne (by simp)
    rw [slashed] at there ⊢
    rw [folder_of_ne written]
    obtain ⟨e, found, -⟩ := isDirectory_iff.mp there
    obtain ⟨l, located, below⟩ := entry?_eq_some_iff.mp found
    rw [found]
    exact entry?_eq_some_iff.mpr ⟨l, locate_slash written located, below⟩

end

/-- An entry lies at a location, to which a path leads. -/
structure HasAt (d : Disk) (path : String) (here : List String) (e : Entry) : Prop where
  located : d.locate path = .ok here
  found : d.root.at? here = some e

theorem HasAt.leads {d : Disk} {path : String} {here : List String} {e : Entry}
    (h : d.HasAt path here e) : d.entry? path = some e :=
  entry?_eq_some_iff.mpr ⟨here, h.located, h.found⟩

theorem HasAt.of_leads {d : Disk} {path : String} {here : List String} {e : Entry}
    (located : d.locate path = .ok here) (found : d.entry? path = some e) : d.HasAt path here e := by
  obtain ⟨l, located', below⟩ := entry?_eq_some_iff.mp found
  obtain rfl := Except.ok.inj (located'.symm.trans located)
  exact ⟨located, below⟩

theorem hasNul_of_folder {a : String} (checked : checkPath (folder a) = .ok ()) :
    hasNul a = false := by
  by_cases written : a = ""
  · subst written
    decide +kernel
  · rw [folder_of_ne written] at checked
    exact (checkPath_eq_ok_iff.mp checked).1

theorem Place.apart {d : Disk} {path : String} {parent : List String} {last : String}
    (place : d.Place path parent last) {here : List String} {e : Entry} (found : d.root.at? here = some e)
    (isDirectory : e.kind = .directory) (outside : ¬ here <+: parent) :
    ¬ parent ++ [last] <+: here ∧ ¬ here <+: parent ++ [last] := by
  have above : ¬ parent ++ [last] <+: here := by
    rintro ⟨r, rfl⟩
    cases r with
    | nil => exact (place.free e (by simpa using found)).file isDirectory
    | cons n r =>
      obtain ⟨f, there, kind⟩ := Entry.kind_of_at?_append found
      exact (place.free f there).file kind
  refine ⟨above, fun below => ?_⟩
  rcases List.prefix_concat_iff.mp below with rfl | deeper
  · exact above List.prefix_rfl
  · exact outside deeper

section
variable {d : Disk} {source : String} {here : List String} {e : Entry}
  (lies : d.HasAt source here e) {path : String} {parent : List String} {last : String}
  (place : d.Place path parent last) (isDirectory : e.kind = .directory) (outside : ¬ here <+: parent)
include lies place isDirectory outside

theorem HasAt.put (c : Entry) : (d.put (parent ++ [last]) c).HasAt source here e := by
  obtain ⟨above, below⟩ := place.apart lies.found isDirectory outside
  exact ⟨(place.put_stands (c := c)).locate lies.located,
    (Entry.at?_put_of_apart above below).trans lies.found⟩

end

end Flotilla.Files.Disk
