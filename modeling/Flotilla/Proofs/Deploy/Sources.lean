import Flotilla.Proofs.Deploy.Prepared
import Flotilla.Proofs.Files.Glob

/-! Which source trees a prepare accepts. It is to accept the complete ones and no others, whatever
characters their paths have. The package files are looked for by a pattern that begins with the path
of the tree, so a complete tree is accepted only if that pattern is met by its own text. Its archives are
built only if all of it can be packed. -/
namespace Flotilla.Deploy
open Files (Disk OwnPattern join)

structure IsComplete (e : Files.Entry) : Prop where
  sources : ∃ c, e.child? "src" = some c ∧ c.kind = .directory
  package : (e.child? Pipeline.packageFile).isSome
  inputs : ∃ c, e.child? Defaults.inputsDirectory = some c ∧ c.kind = .directory

namespace Pipeline

theorem checkSources_eq_ok_iff {p : Pipeline} {d : Disk} {files : List String} :
    p.checkSources d files = .ok () ↔ d.isDirectory p.sourcePath ∧
      join p.source packageFile ∈ files ∧ d.isDirectory p.inputsPath := by
  rw [checkSources]
  split
  · simp_all
  · split
    · simp_all
    · split <;> simp_all

theorem checkSources_refuses {p : Pipeline} {d : Disk} {files : List String}
    (h : p.checkSources d files ≠ .ok ()) :
    ∃ why, p.checkSources d files = .error (.misconfigured why) := by
  rw [checkSources] at h ⊢
  split
  · exact ⟨_, rfl⟩
  · split
    · exact ⟨_, rfl⟩
    · split
      · exact ⟨_, rfl⟩
      · simp_all

theorem hasWildcard_packagePattern : Files.hasWildcard packagePattern = true := by decide +kernel

theorem isName_parts : Disk.isName "src" ∧ Disk.isName packageFile ∧
    Disk.isName Defaults.inputsDirectory ∧ Disk.isName sourceArchive ∧ Disk.isName inputsArchive := by
  decide +kernel

theorem answers_packagePattern {n : String} :
    Files.answers packagePattern n = true ↔ "Cargo.".toList <+: n.toList := by
  have read : Files.wildcards packagePattern.toList =
      "Cargo.".toList.map Files.Wildcard.char ++ [.many] := by decide +kernel
  have shown : Files.isHidden packagePattern = false := by decide +kernel
  rw [Files.answers, read, shown, Bool.false_or, Bool.and_eq_true, Files.matches_prefix_iff]
  refine and_iff_right_of_imp fun begins => ?_
  have other : ¬ n.startsWith "." := by
    rw [String.startsWith_string_iff]
    intro hidden
    obtain ⟨r, chars⟩ := begins
    rw [← chars] at hidden
    simp [List.cons_prefix_cons] at hidden
  simpa [Files.isHidden] using other

section
variable {p : Pipeline} {d : Disk} {e : Files.Entry} (sound : d.root.IsSound)
  (found : d.entry? p.source = some e) (isDirectory : e.kind = .directory)
include sound found isDirectory

theorem findPackageFiles_ok : ∃ files, p.findPackageFiles d = .ok files ∧
    ∀ n, '/' ∉ n.toList → (join p.source n ∈ files ↔ OwnPattern (join p.source packagePattern) ∧
      (e.child? n).isSome ∧ "Cargo.".toList <+: n.toList) := by
  have checked := Disk.checkPath_of_isPresent (d := d) (p := p.source) (by rw [Disk.isPresent, found]; rfl)
  obtain ⟨clean, written, -⟩ := Disk.checkPath_eq_ok_iff.mp checked
  have same := Disk.folder_of_ne written
  obtain ⟨files, globbed, members⟩ := Files.glob_join sound
    (Disk.hasNul_join (a := p.source) (n := packagePattern) (by decide +kernel) clean (by decide +kernel))
    (by decide +kernel) hasWildcard_packagePattern
    (Files.matchesItself_of_notMem (by decide +kernel))
    (by rw [same]; exact Disk.isDirectory_iff.mpr ⟨e, found, isDirectory⟩)
  refine ⟨Report.sortKeys files, by rw [findPackageFiles, globbed], fun n inner => ?_⟩
  rw [Report.sortKeys, (List.mergeSort_perm _ _).mem_iff, members n inner,
    Files.mem_namesFound_iff hasWildcard_packagePattern (by rwa [same]), answers_packagePattern]

/-- The check passes for a complete tree that the pattern finds, as long as its paths do not get too
long. -/
theorem check_ok_iff : (∃ files, p.check d = .ok files) ↔
    IsComplete e ∧ OwnPattern (join p.source packagePattern) ∧
      (join p.source Defaults.inputsDirectory).utf8ByteSize < Disk.pathLimit := by
  obtain ⟨files, listed, members⟩ := findPackageFiles_ok sound found isDirectory
  obtain ⟨src, package, inputs, -⟩ := isName_parts
  have shorter : (join p.source "src").utf8ByteSize ≤
      (join p.source Defaults.inputsDirectory).utf8ByteSize := by
    rw [Files.join_eq_lead _ (by decide +kernel), Files.join_eq_lead _ (by decide +kernel),
      String.utf8ByteSize_append, String.utf8ByteSize_append]
    exact Nat.add_le_add_left (by decide +kernel) _
  have accepted : (∃ files, p.check d = .ok files) ↔ p.checkSources d files = .ok () := by
    simp [check_eq_ok_iff, listed]
  have begins : "Cargo.".toList <+: packageFile.toList := by decide +kernel
  rw [accepted, checkSources_eq_ok_iff, sourcePath, inputsPath, Disk.isDirectory_join_iff src found,
    Disk.isDirectory_join_iff inputs found, members packageFile (Disk.isName_iff.mp package).2.2.2]
  constructor
  · rintro ⟨⟨-, sources⟩, ⟨own, present, -⟩, short, inputs'⟩
    exact ⟨⟨sources, present, inputs'⟩, own, short⟩
  · rintro ⟨⟨sources, present, inputs'⟩, own, short⟩
    exact ⟨⟨by omega, sources⟩, ⟨own, present, begins⟩, short, inputs'⟩

theorem check_refuses (h : ¬ ∃ files, p.check d = .ok files) :
    ∃ why, p.check d = .error (.misconfigured why) := by
  obtain ⟨files, listed, -⟩ := findPackageFiles_ok sound found isDirectory
  have refused : p.checkSources d files ≠ .ok () := fun passed =>
    h ⟨files, check_eq_ok_iff.mpr ⟨listed, passed⟩⟩
  obtain ⟨why, refuses⟩ := checkSources_refuses refused
  exact ⟨why, by rw [check, listed]; simp [refuses, bind, Except.bind]⟩

end

section
variable {d : Disk} (sound : d.root.IsSound) {parent : List String} {name : String}
  (proper : Disk.isName name)
include sound proper

theorem begun_sound : (begun d (parent ++ [name])).root.IsSound := sound.put proper (.torn [])

theorem archived_sound (contents : List (String × String)) :
    (archived d (parent ++ [name]) contents).root.IsSound :=
  (begun_sound sound proper).put proper (Files.Packing.isSound_entry _)

theorem packing_ok_iff {path : String} (place : d.Place path parent name)
    (contents : List (String × String)) :
    (packing d (parent ++ [name]) contents).outcome = .ok () ↔
      ∀ c ∈ contents, (begun d (parent ++ [name])).Packable (parent ++ [name]) c.1 := by
  obtain ⟨e, found, -⟩ := place.above
  have there : (begun d (parent ++ [name])).root.at? (parent ++ [name]) = some (.torn []) :=
    Files.Entry.at?_put found
  rw [packing, Files.Packing.all_ok_iff, List.forall_mem_map]
  exact forall₂_congr fun c _ =>
    Disk.pack_ok_iff (begun_sound sound proper) there nofun c.1 c.2

end

/-- A prepare that tells the complete trees from the others: it is refused as a misconfiguration if
something is missing, and else builds both archives. -/
structure Discerns (p : Pipeline) (work : String) (e : Files.Entry) (g : Progress) : Prop where
  refuses : (∃ why, (exec (p.prepare (.text work)) g).1 = .error (.misconfigured why)) ↔
    ¬ IsComplete e
  builds : IsComplete e → ∃ g', exec (p.prepare (.text work)) g = (.ok ⟨⟩, g') ∧
    g'.built = archivesIn work ∧ g'.built.LieOn g'.session.disk

theorem places {made : Disk} {work : String} (there : made.isDirectory work) {here : List String}
    (located : made.locate work = .ok here)
    (free : ∀ n ∈ [sourceArchive, inputsArchive], made.isDirectory (join work n) = false)
    (accessible : ∀ n ∈ [sourceArchive, inputsArchive], made.isClosed (join work n) = false)
    (short : (join work sourceArchive).utf8ByteSize < Disk.pathLimit) :
    made.Place (join work sourceArchive) here sourceArchive ∧
      made.Place (join work inputsArchive) here inputsArchive := by
  obtain ⟨-, -, -, source, inputs⟩ := isName_parts
  have checked := Disk.checkPath_of_isPresent (Disk.isPresent_of_isDirectory there)
  obtain ⟨clean, written, -⟩ := Disk.checkPath_eq_ok_iff.mp checked
  have alike : (join work inputsArchive).utf8ByteSize = (join work sourceArchive).utf8ByteSize := by
    rw [Files.join_eq_lead _ (by decide +kernel), Files.join_eq_lead _ (by decide +kernel),
      String.utf8ByteSize_append, String.utf8ByteSize_append]
    exact congrArg _ (by decide +kernel)
  rw [← Disk.folder_of_ne written] at located there
  refine ⟨?_, ?_⟩
  · exact Disk.place_join source ((Disk.checkPath_join_iff source clean).mpr short) located there
      (free _ (by simp)) (accessible _ (by simp))
  · exact Disk.place_join inputs ((Disk.checkPath_join_iff inputs clean).mpr (by omega)) located there
      (free _ (by simp)) (accessible _ (by simp))

theorem isClosed_join_of_plain {d : Disk} {work n : String} {here : List String} (proper : Disk.isName n)
    (located : d.locate (Disk.folder work) = .ok here)
    (plain : ∀ f, d.root.at? (here ++ [n]) = some f → f.IsPlain) : d.isClosed (join work n) = false := by
  rw [Bool.eq_false_iff]
  intro closed
  obtain ⟨f, found, kind⟩ := Disk.isClosed_iff.mp closed
  obtain ⟨l, located', there⟩ := Disk.entry?_eq_some_iff.mp found
  obtain ⟨⟨⟩, checked, -⟩ := ok_of_bind located'
  obtain ⟨here', lead, rfl, -⟩ := (Disk.locate_join_iff proper checked).mp located'
  obtain rfl := Except.ok.inj (lead.symm.trans located)
  exact (plain f there).accessible kind

/-- What the archives of a tree need to be built, with its package files and the directory for them made:
the pattern is met by its own text, there are places, and all can be packed, each part into the archive
that has just been begun. -/
structure Suits (p : Pipeline) (work : String) (files : List String) (made : Disk)
    (here : List String) : Prop where
  own : OwnPattern (join p.source packagePattern)
  short : (join work sourceArchive).utf8ByteSize < Disk.pathLimit
  accessible : ∀ n ∈ [sourceArchive, inputsArchive], made.isClosed (join work n) = false
  source : ∀ c ∈ p.sourceContents files,
    (begun made (here ++ [sourceArchive])).Packable (here ++ [sourceArchive]) c.1
  inputs : (begun (archived made (here ++ [sourceArchive]) (p.sourceContents files))
    (here ++ [inputsArchive])).Packable (here ++ [inputsArchive]) p.inputsPath

section
variable {p : Pipeline} {work : String} {e : Files.Entry} {d made : Disk} {here files : List String}
  (sound : d.root.IsSound) (found : d.entry? p.source = some e) (isDirectory : e.kind = .directory)
  (makes : d.makeDirectories work = (.ok (), made)) (listed : p.findPackageFiles d = .ok files)

include sound makes

theorem made_sound : made.root.IsSound := by
  have := Disk.makeDirectories_sound work sound
  rwa [makes] at this

theorem shipped_sound (here : List String) (contents : List (String × String)) :
    (archived made (here ++ [sourceArchive]) contents).root.IsSound :=
  archived_sound (made_sound sound makes) isName_parts.2.2.2.1 contents

include found isDirectory listed

theorem Course.suits (c : p.Course work d) (located : made.locate (Disk.folder work) = .ok here) :
    p.Suits work files made here := by
  obtain ⟨-, -, -, source, inputs⟩ := isName_parts
  obtain ⟨files', checked, made', makes', parent, last, place, packs, parent', last', place', packs'⟩ := c
  obtain rfl := Except.ok.inj ((check_eq_ok_iff.mp checked).1.symm.trans listed)
  obtain ⟨-, rfl⟩ := Prod.mk.inj (makes'.symm.trans makes)
  obtain ⟨-, own, -⟩ := (check_ok_iff sound found isDirectory).mp ⟨_, checked⟩
  -- Both archives are begun in the directory that was made, which the first one leaves where it is.
  obtain ⟨rfl, lead⟩ := place.of_join (Disk.isName_iff.mp source).2.2.2
  obtain rfl := Except.ok.inj (lead.symm.trans located)
  obtain ⟨rfl, lead'⟩ := place'.of_join (Disk.isName_iff.mp inputs).2.2.2
  obtain rfl := Except.ok.inj (lead'.symm.trans
    ((archived_keepsBut place _).stands.locate located))
  refine ⟨own, (Disk.checkPath_eq_ok_iff.mp place.checked).2.2, ?_,
    (packing_ok_iff (made_sound sound makes) source place _).mp packs, ?_⟩
  · simp only [List.forall_mem_cons, List.not_mem_nil, false_implies, implies_true, and_true]
    refine ⟨isClosed_join_of_plain source located place.free,
      isClosed_join_of_plain inputs located fun f there => place'.free f ?_⟩
    rwa [archived_at?_of_apart _ (beside (by decide +kernel)) (beside (by decide +kernel))]
  · exact (packing_ok_iff (shipped_sound sound makes _ _) inputs place' _).mp packs' _
      (List.mem_singleton_self _)

theorem Suits.course (suits : p.Suits work files made here) (complete : IsComplete e)
    (there : made.isDirectory work) (located : made.locate work = .ok here)
    (free : ∀ n ∈ [sourceArchive, inputsArchive], made.isDirectory (join work n) = false) :
    Nonempty (p.Course work d) := by
  obtain ⟨-, -, -, source, inputs⟩ := isName_parts
  obtain ⟨own, short, accessible, packs, packs'⟩ := suits
  have reached : (join p.source Defaults.inputsDirectory).utf8ByteSize < Disk.pathLimit := by
    obtain ⟨l, f, lies, -⟩ := packs'
    obtain ⟨⟨⟩, checked, -⟩ := ok_of_bind lies.located
    exact (Disk.checkPath_eq_ok_iff.mp checked).2.2
  obtain ⟨files', checked⟩ := (check_ok_iff sound found isDirectory).mpr ⟨complete, own, reached⟩
  obtain rfl := Except.ok.inj ((check_eq_ok_iff.mp checked).1.symm.trans listed)
  obtain ⟨place, place'⟩ := places there located free accessible short
  have place'' := Place.archived place (p.sourceContents files') place' (by decide +kernel)
  exact ⟨⟨files', checked, made, makes, here, sourceArchive, place,
    (packing_ok_iff (made_sound sound makes) source place _).mpr packs, here, inputsArchive, place'',
    (packing_ok_iff (shipped_sound sound makes _ _) inputs place'' _).mpr
      (by simpa [inputsContents] using packs')⟩⟩

end

/-- A prepare tells the complete trees from the others exactly if what complete ones need is there. -/
theorem discerns_iff {p : Pipeline} {work : String} {e : Files.Entry} {g : Progress} {made : Disk}
    {here : List String} {files : List String}
    (sound : g.session.disk.root.IsSound) (found : g.session.disk.entry? p.source = some e)
    (isDirectory : e.kind = .directory)
    (makes : g.session.disk.makeDirectories work = (.ok (), made)) (there : made.isDirectory work)
    (located : made.locate work = .ok here)
    (free : ∀ n ∈ [sourceArchive, inputsArchive], made.isDirectory (join work n) = false)
    (listed : p.findPackageFiles g.session.disk = .ok files) :
    p.Discerns work e g ↔ (IsComplete e → p.Suits work files made here) := by
  constructor
  · intro discerns complete
    obtain ⟨g', ran, -, -⟩ := discerns.builds complete
    obtain ⟨c, -⟩ := exec_prepare_ok_iff.mp ran
    have written := (Disk.checkPath_eq_ok_iff.mp
      (Disk.checkPath_of_isPresent (Disk.isPresent_of_isDirectory there))).2.1
    rw [← Disk.folder_of_ne written] at located
    exact c.suits sound found isDirectory makes listed located
  · intro suits
    have succeeds (complete : IsComplete e) : Nonempty (p.Course work g.session.disk) :=
      (suits complete).course sound found isDirectory makes listed complete there located free
    refine ⟨⟨fun refused complete => ?_, fun incomplete => ?_⟩, fun complete => ?_⟩
    · obtain ⟨why, refused⟩ := refused
      obtain ⟨c⟩ := succeeds complete
      rw [exec_prepare_ok_iff.mpr ⟨c, rfl⟩] at refused
      cases refused
    · have failed : ¬ ∃ files, p.check g.session.disk = .ok files := fun passed =>
        incomplete ((check_ok_iff sound found isDirectory).mp passed).1
      obtain ⟨why, refuses⟩ := check_refuses sound found isDirectory failed
      exact ⟨why, by rw [prepare, prepareIn, exec_bind, readyIn, exec_ready, refuses]⟩
    · obtain ⟨c⟩ := succeeds complete
      exact ⟨_, exec_prepare_ok_iff.mpr ⟨c, rfl⟩, rfl, c.lieOn⟩

/-- A complete tree is told from others under a path with a star and a slash at its end, though
another directory matches that path as well. -/
theorem discerns_starred :
    let nodes : List Node := [⟨0, "a"⟩]
    let t : Topology := ⟨"a:27736", 1⟩
    let scenario : Scenario := ⟨.standard, 10, 100, .text "inputs"⟩
    let fleet : Fleet := ⟨nodes, t, scenario, nodes.map (Fleet.place t scenario · Fleet.firstSlot)⟩
    let p : Pipeline := ⟨⟨fleet, "dir", none⟩, ⟨⟨none, none, none⟩, []⟩, "pro*/", false, .skipFailed⟩
    let e : Files.Entry := .directory [("src", .empty), ("Cargo.toml", .file ""), ("inputs", .empty)]
    let root : Files.Entry := .directory [("pro*", e), ("project", .directory [("Cargo.toml", .file "")])]
    let g : Progress := { session := .new [] ⟨root, "/", "/", "/tmp", []⟩ "1" }
    IsComplete e ∧ p.Discerns "work" e g := by
  intro nodes t scenario fleet p e root g
  have complete : IsComplete e := ⟨⟨_, rfl, rfl⟩, rfl, ⟨_, rfl, rfl⟩⟩
  have sound : g.session.disk.root.IsSound := by decide +kernel
  have plain (s : String) (none : '[' ∉ s.toList) : Files.MatchesItself s :=
    Files.matchesItself_of_notMem none
  have named : OwnPattern "pro*" := by
    have := OwnPattern.joined (n := "pro*") (.plain (p := "") (by decide +kernel)) (.inr (by simp))
      (by decide +kernel) (plain "pro*" (by decide +kernel))
    rwa [show join "" "pro*" = "pro*" by decide +kernel] at this
  have own : OwnPattern (join "pro*/" packagePattern) := by
    have := OwnPattern.joined (n := packagePattern) named (.inl (by decide +kernel))
      (by decide +kernel) (plain packagePattern (by decide +kernel))
    rwa [show join "pro*" packagePattern = join "pro*/" packagePattern by decide +kernel] at this
  have found : g.session.disk.entry? p.source = some e :=
    Disk.entry?_eq_some_iff.mpr ⟨["pro*"], by decide +kernel, rfl⟩
  have makes : g.session.disk.makeDirectories "work" =
      (.ok (), (g.session.disk.makeDirectories "work").2) := Prod.ext (by decide +kernel) rfl
  obtain ⟨made, same⟩ : ∃ made, (g.session.disk.makeDirectories "work").2 = made := ⟨_, rfl⟩
  have listed : p.findPackageFiles g.session.disk = .ok ["pro*/Cargo.toml", "project/Cargo.toml"] := by
    have globbed : Files.glob g.session.disk (join p.source packagePattern) =
        .ok ["pro*/Cargo.toml", "project/Cargo.toml"] := by decide +kernel
    rw [findPackageFiles, globbed]
    exact congrArg Except.ok (List.mergeSort_of_pairwise (by decide +kernel))
  have there : made.isDirectory "work" := same ▸ by decide +kernel
  have located : made.locate "work" = .ok ["work"] := same ▸ by decide +kernel
  have free : ∀ n ∈ [sourceArchive, inputsArchive], made.isDirectory (join "work" n) = false :=
    same ▸ by decide +kernel
  have accessible : ∀ n ∈ [sourceArchive, inputsArchive], made.isClosed (join "work" n) = false :=
    same ▸ by decide +kernel
  have suits := discerns_iff sound found rfl (same ▸ makes) there located free listed
  obtain ⟨place, place'⟩ := places there located free accessible (by decide +kernel)
  have made_sound : made.root.IsSound := same ▸ by decide +kernel
  refine ⟨complete, suits.mpr fun _ => ⟨own, by decide +kernel, accessible, ?_, ?_⟩⟩
  · exact (packing_ok_iff made_sound (by decide +kernel) place _).mp (same ▸ by decide +kernel)
  · have shipped_sound : (archived made (["work"] ++ [sourceArchive])
        (p.sourceContents ["pro*/Cargo.toml", "project/Cargo.toml"])).root.IsSound :=
      archived_sound made_sound isName_parts.2.2.2.1 _
    exact (packing_ok_iff shipped_sound (by decide +kernel)
      (Place.archived place _ place' (by decide +kernel)) p.inputsContents).mp
        (same ▸ by decide +kernel) _ (List.mem_singleton_self _)

/-- Brackets in the path of a complete tree are read as a class of characters: it is refused for want of
the package file that it has. -/
theorem not_discerns_bracketed :
    let nodes : List Node := [⟨0, "node0"⟩]
    let t : Topology := ⟨"node0:27736", 1⟩
    let scenario : Scenario := ⟨.standard, 10, 100, .text "inputs"⟩
    let fleet : Fleet := ⟨nodes, t, scenario, nodes.map (Fleet.place t scenario · Fleet.firstSlot)⟩
    let p : Pipeline := ⟨⟨fleet, "dir", none⟩, ⟨⟨none, none, none⟩, []⟩, "a[b]", false, .skipFailed⟩
    let e : Files.Entry := .directory [("src", .empty), ("Cargo.toml", .file ""), ("inputs", .empty)]
    let g : Progress := { session := .new [] ⟨.directory [("a[b]", e)], "/", "/", "/tmp", []⟩ "1" }
    g.session.disk.root.IsSound ∧ g.session.disk.entry? p.source = some e ∧ IsComplete e ∧
      (∃ made, g.session.disk.makeDirectories "w" = (.ok (), made) ∧ made.isDirectory "w" ∧
        ∀ n ∈ [sourceArchive, inputsArchive], made.isDirectory (join "w" n) = false) ∧
      (exec (p.prepare (.text "w")) g).1 = .error (.misconfigured (.noPackageFile "a[b]")) ∧
      ¬ p.Discerns "w" e g := by
  intro nodes t scenario fleet p e g
  have complete : IsComplete e := ⟨⟨_, rfl, rfl⟩, rfl, ⟨_, rfl, rfl⟩⟩
  have refused :
      (exec (p.prepare (.text "w")) g).1 = .error (.misconfigured (.noPackageFile "a[b]")) := by
    decide +kernel
  have found : g.session.disk.entry? p.source = some e :=
    Disk.entry?_eq_some_iff.mpr ⟨["a[b]"], by decide +kernel, rfl⟩
  refine ⟨by decide +kernel, found, complete, ⟨_, Prod.ext ?_ rfl, ?_⟩, refused, fun discerns => ?_⟩
  · decide +kernel
  · decide +kernel
  · obtain ⟨g', ran, -, -⟩ := discerns.builds complete
    rw [ran] at refused
    cases refused

end Pipeline
end Flotilla.Deploy
