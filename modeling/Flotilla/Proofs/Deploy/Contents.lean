import Flotilla.Proofs.Deploy.Sources
import Flotilla.Proofs.Files.Unpack
import Flotilla.Proofs.Report.Store

namespace Flotilla

namespace Files.Disk

/-- A directory that lies outside another one: it is not in it, and making it leaves it as it is. -/
structure Outside (d : Disk) (work source : String) : Prop where
  apart : ∀ {here there}, (d.makeDirectories work).2.locate (folder source) = .ok here →
    (d.makeDirectories work).2.locate (folder work) = .ok there → ¬ here <+: there
  untouched : entry? (d.makeDirectories work).2 (folder source) = d.entry? (folder source)

end Files.Disk

namespace Deploy.Pipeline
open Files (Disk Member OwnPattern join)
open Files.Disk (folder)

def IsShipped (n : String) : Prop :=
  n = "src" ∨ "Cargo.".toList <+: n.toList ∨ n = Defaults.inputsDirectory

structure IsPackage (e : Files.Entry) (names : List String) : Prop where
  sorted : names.Pairwise (· < ·)
  mem_iff : ∀ n, n ∈ names ↔ (e.child? n).isSome ∧ "Cargo.".toList <+: n.toList

/-- Members of two archives that hold what is shipped of a directory: the source archive the sources and
after them the package files by name, the other one the inputs. Both together unpack to these entries of
the directory and to nothing else. -/
structure Ships (e : Files.Entry) (source inputs : List Member) : Prop where
  inSource : ∃ names, IsPackage e names ∧ e.ListsAll ("src" :: names) source
  inInputs : e.ListsAll [Defaults.inputsDirectory] inputs
  same : ∀ n r, IsShipped n →
    ((Files.Entry.unpack (source ++ inputs)).at? (n :: r)).map Files.Entry.outline =
      (e.at? (n :: r)).map Files.Entry.outline
  rest : ∀ n r, ¬ IsShipped n → (Files.Entry.unpack (source ++ inputs)).at? (n :: r) = none

theorem Ships.of_lists {e : Files.Entry} (sound : e.IsSound) {source inputs : List Member}
    {names : List String} (package : IsPackage e names) (lists : e.ListsAll ("src" :: names) source)
    (lists' : e.ListsAll [Defaults.inputsDirectory] inputs) : Ships e source inputs := by
  have other (n : String) (short : ¬ "Cargo.".toList <+: n.toList) : n ∉ names :=
    fun member => short ((package.mem_iff n).mp member).2
  have distinct : ("src" :: names ++ [Defaults.inputsDirectory]).Nodup := by
    refine List.nodup_append.mpr ⟨List.nodup_cons.mpr ⟨other _ (by decide +kernel), ?_⟩, by simp, ?_⟩
    · exact package.sorted.imp Std.ne_of_lt
    · intro a first b second
      obtain rfl := List.mem_singleton.mp second
      rintro rfl
      rcases List.mem_cons.mp first with same | member
      · exact absurd same (by decide +kernel)
      · exact other _ (by decide +kernel) member
  have unpacked := (lists.append lists').unpack sound distinct
  refine ⟨⟨names, package, lists⟩, lists', fun n r ships => ?_, fun n r rests => ?_⟩
  · rw [unpacked]
    cases there : e.at? (n :: r) with
    | none => exact ite_self _
    | some c =>
      rw [Files.Entry.at?_cons] at there
      obtain ⟨f, child, -⟩ := Option.bind_eq_some_iff.mp there
      refine if_pos ?_
      rcases ships with rfl | begins | rfl
      · simp
      · have member := (package.mem_iff n).mpr ⟨by rw [child]; rfl, begins⟩
        simp [member]
      · simp
  · have absent : n ∉ "src" :: names ++ [Defaults.inputsDirectory] := by
      simp only [IsShipped, not_or] at rests
      simp [rests.1, rests.2.2, other n rests.2.1]
    have := unpacked n r
    rw [if_neg absent] at this
    exact Option.map_eq_none_iff.mp this

def contentsIn (source : String) (ns : List String) : List (String × String) :=
  ns.map fun n => (join source n, n)

section
variable {d : Disk} {source : String} {here : List String} {e : Files.Entry}
  (lies : d.HasAt (folder source) here e)
include lies

theorem lists_pack (sound : e.IsSound) {skip : List String} (apart : ¬ here <+: skip) {n : String}
    (proper : Disk.isName n) (ok : (d.pack skip (join source n) n).outcome = .ok ()) :
    e.Lists n (d.pack skip (join source n) n).members := by
  obtain ⟨l, c, below, packed⟩ := Disk.packable_of_pack ok
  obtain ⟨⟨⟩, checked, -⟩ := ok_of_bind below.located
  obtain ⟨here', lead, rfl, -⟩ := (Disk.locate_join_iff proper checked).mp below.located
  obtain rfl := Except.ok.inj (lead.symm.trans lies.located)
  have child : e.child? n = some c := by
    have := below.found
    rwa [Files.Entry.at?_concat, lies.found] at this
  have inside (l : List String) : e.at? (n :: l) = c.at? l := by
    rw [Files.Entry.at?_cons, child]
    rfl
  rw [packed] at ok ⊢
  obtain ⟨ls, walk, members⟩ := Files.Entry.members_pack
    (sound.of_mem (sound.child?_eq_some_iff.mp child))
    (fun above => apart ((List.prefix_append _ _).trans above)) n ok
  refine ⟨ls, walk.sorted, fun l => by rw [walk.mem_iff, inside], members.trans ?_⟩
  exact List.map_congr_left fun l _ => by rw [Files.Entry.memberAt, Files.Entry.memberAt, inside]; rfl

variable {path : String} {parent : List String} {last : String} (place : d.Place path parent last)
  (isDirectory : e.kind = .directory) (outside : ¬ here <+: parent)
include place isDirectory outside

theorem hasAt_archived (contents : List (String × String)) :
    (archived d (parent ++ [last]) contents).HasAt (folder source) here e :=
  (lies.put place isDirectory outside _).put (begun_place place) isDirectory outside _

theorem lists_packing (sound : e.IsSound) {ns : List String} (proper : ∀ n ∈ ns, Disk.isName n)
    (ok : (packing d (parent ++ [last]) (contentsIn source ns)).outcome = .ok ()) :
    e.ListsAll ns (packing d (parent ++ [last]) (contentsIn source ns)).members := by
  have begun := lies.put place isDirectory outside (.torn [])
  have apart := (place.apart lies.found isDirectory outside).2
  have each := Files.Packing.all_ok_iff.mp ok
  rw [packing, Files.Packing.members_all ok, contentsIn, List.map_map, List.flatMap_map]
  rw [contentsIn, List.map_map, List.forall_mem_map] at each
  clear ok
  induction ns with
  | nil => exact .nil
  | cons n ns ih =>
    obtain ⟨first, each'⟩ := List.forall_mem_cons.mp each
    obtain ⟨proper, proper'⟩ := List.forall_mem_cons.mp proper
    exact .cons (lists_pack begun sound apart proper first) (ih proper' each')

end

theorem sortKeys_join (a : String) {ns : List String} (inner : ∀ n ∈ ns, '/' ∉ n.toList) :
    Report.sortKeys (ns.map (join a)) = (Report.sortKeys ns).map (join a) :=
  (List.map_mergeSort fun n member m member' => by
    simp only [Files.join_le_join_iff a (inner n member) (inner m member')]).symm

section
variable {p : Pipeline} {d : Disk} {files : List String} (sound : d.root.IsSound)
  (checked : p.check d = .ok files)
include checked

theorem found_of_check : ∃ e, d.entry? (folder p.source) = some e ∧ e.kind = .directory := by
  obtain ⟨sources, -⟩ := checkSources_eq_ok_iff.mp (check_eq_ok_iff.mp checked).2
  exact Disk.isDirectory_iff.mp (Disk.isDirectory_of_join (by decide +kernel)
    (Disk.isPresent_of_isDirectory sources))

variable {e : Files.Entry} (found : d.entry? (folder p.source) = some e)
include found

theorem directories_of_check : ∀ n ∈ ["src", Defaults.inputsDirectory],
    Disk.checkPath (join p.source n) = .ok () ∧ ∃ c, e.child? n = some c ∧ c.kind = .directory := by
  obtain ⟨sources, -, inputs⟩ := checkSources_eq_ok_iff.mp (check_eq_ok_iff.mp checked).2
  have inside {n : String} (proper : Disk.isName n) (there : d.isDirectory (join p.source n)) :
      Disk.checkPath (join p.source n) = .ok () ∧ ∃ c, e.child? n = some c ∧ c.kind = .directory := by
    have short := Disk.checkPath_of_isPresent (Disk.isPresent_of_isDirectory there)
    obtain ⟨c, below, kind⟩ := Disk.isDirectory_iff.mp there
    rw [Disk.entry?_join proper short, found] at below
    exact ⟨short, c, below, kind⟩
  simpa using ⟨inside (by decide +kernel) sources, inside (by decide +kernel) inputs⟩

theorem complete_of_check (package : (e.child? packageFile).isSome) : IsComplete e :=
  ⟨(directories_of_check checked found _ (by simp)).2, package,
    (directories_of_check checked found _ (by simp)).2⟩

include sound

/-- Without wildcards in the path of the tree, the package files are those in it and no others. -/
theorem package_of_check (isDirectory : e.kind = .directory)
    (plain : Files.hasWildcard p.source = false) : ∃ names, IsPackage e names ∧
      packageFile ∈ names ∧ files = names.map (join p.source) := by
  obtain ⟨listed, passed⟩ := check_eq_ok_iff.mp checked
  obtain ⟨-, package, -⟩ := checkSources_eq_ok_iff.mp passed
  rw [findPackageFiles] at listed
  split at listed
  · next paths globbed =>
    obtain rfl := Except.ok.inj listed
    have wild := hasWildcard_packagePattern
    have there : d.isDirectory (folder p.source) := Disk.isDirectory_iff.mpr ⟨e, found, isDirectory⟩
    have clean := Disk.hasNul_of_folder
      (Disk.checkPath_of_isPresent (Disk.isPresent_of_isDirectory there))
    rw [Report.sortKeys, (List.mergeSort_perm _ _).mem_iff] at package
    obtain rfl := Files.glob_plain sound
      (Disk.hasNul_join (n := packagePattern) (by decide +kernel) clean (by decide +kernel))
      (by decide +kernel) wild plain globbed there (by decide +kernel) package
    obtain ⟨ns, same⟩ : ∃ ns, Files.namesFound d false packagePattern p.source = ns := ⟨_, rfl⟩
    rw [same] at package ⊢
    have inner : ∀ n ∈ ns, '/' ∉ n.toList := fun n named =>
      Files.notMem_of_namesFound sound (by decide +kernel) (same ▸ named)
    have perm : (Report.sortKeys ns).Perm ns := List.mergeSort_perm _ _
    have distinct := perm.nodup_iff.mpr (same ▸ Files.nodup_namesFound sound wild)
    refine ⟨Report.sortKeys ns, ⟨?_, fun n => ?_⟩, ?_, sortKeys_join p.source inner⟩
    · exact ((Report.pairwise_sortKeys ns).and distinct).imp fun h => Std.lt_of_le_of_ne h.1 h.2
    · rw [perm.mem_iff, ← same, Files.mem_namesFound_iff wild found, answers_packagePattern]
    · obtain ⟨n, named, alike⟩ := List.mem_map.mp package
      obtain ⟨-, rfl⟩ := (Files.join_eq_iff (inner n named) (by decide +kernel)).mp alike
      exact perm.mem_iff.mpr named
  · cases listed

end

namespace Course
variable {p : Pipeline} {work : String} {d : Disk} (c : p.Course work d)

theorem places : c.made.locate (folder work) = .ok c.parent ∧ c.parent' = c.parent ∧
    c.last = sourceArchive ∧ c.last' = inputsArchive := by
  obtain ⟨last, located⟩ := c.place.of_join (by decide +kernel)
  obtain ⟨last', located'⟩ := c.place'.of_join (by decide +kernel)
  have stays := (archived_keepsBut c.place (p.sourceContents c.files)).stands.locate located
  exact ⟨located, Except.ok.inj (located'.symm.trans stays), last, last'⟩

theorem entry?_source : Disk.entry? c.finished (join work sourceArchive) = some
    (.archive (packing c.made (c.parent ++ [c.last]) (p.sourceContents c.files)).members) := by
  obtain ⟨-, parent, last, last'⟩ := c.places
  have stays := archived_keepsBut c.place' p.inputsContents
  have different : c.last' ≠ c.last := by
    rw [last, last']
    decide +kernel
  refine Disk.entry?_eq_some_iff.mpr
    ⟨_, stays.stands.locate (archived_located c.place (p.sourceContents c.files)), ?_⟩
  have elsewhere : ¬ c.parent' ++ [c.last'] <+: c.parent ++ [c.last] ∧
      ¬ c.parent ++ [c.last] <+: c.parent' ++ [c.last'] := by
    rw [parent]
    exact ⟨beside different, beside (Ne.symm different)⟩
  rw [← Files.Packing.entry_of_ok c.packs]
  exact (archived_at?_of_apart p.inputsContents elsewhere.1 elsewhere.2).trans
    (archived_there c.place (p.sourceContents c.files))

theorem entry?_inputs : Disk.entry? c.finished (join work inputsArchive) = some
    (.archive (packing c.shipped (c.parent' ++ [c.last']) p.inputsContents).members) := by
  have found := archived_found c.place' p.inputsContents
  rwa [Files.Packing.entry_of_ok c.packs'] at found

end Course

theorem sourceContents_eq (p : Pipeline) {names : List String} (inner : ∀ n ∈ names, '/' ∉ n.toList) :
    p.sourceContents (names.map (join p.source)) = contentsIn p.source ("src" :: names) := by
  rw [sourceContents, contentsIn, List.map_map, List.map_cons]
  congr 1
  exact List.map_congr_left fun n member => by
    rw [Function.comp_apply, Files.baseName_join (inner n member)]

/-- A prepare that succeeds for a directory outside of the source tree leaves the tree as it is, and
writes all that is shipped of it, and nothing else. -/
theorem prepare_ships {p : Pipeline} {work : String} {g g' : Progress}
    (sound : g.session.disk.root.IsSound) (plain : Files.hasWildcard p.source = false)
    (outside : g.session.disk.Outside work p.source)
    (ran : exec (p.prepare (.text work)) g = (.ok ⟨⟩, g')) : ∃ e source inputs,
      g.session.disk.entry? (folder p.source) = some e ∧
      g'.session.disk.entry? (folder p.source) = some e ∧
      IsComplete e ∧ g'.built = archivesIn work ∧
      g'.session.disk.entry? (join work sourceArchive) = some (.archive source) ∧
      g'.session.disk.entry? (join work inputsArchive) = some (.archive inputs) ∧
      Ships e source inputs := by
  obtain ⟨c, rfl⟩ := exec_prepare_ok_iff.mp ran
  obtain ⟨e, found, isDirectory⟩ := found_of_check c.checked
  obtain ⟨here, located, below⟩ := Disk.entry?_eq_some_iff.mp found
  obtain ⟨names, package, toml, files⟩ := package_of_check sound c.checked found isDirectory plain
  have made : (g.session.disk.makeDirectories work).2 = c.made := congrArg Prod.snd c.makes
  obtain ⟨apart, untouched⟩ := outside
  rw [made] at apart untouched
  obtain ⟨lead, parent, -, -⟩ := c.places
  have lies : c.made.HasAt (folder p.source) here e :=
    .of_leads (made ▸ (Disk.makeDirectories_keeps _ work).stands.locate located)
      (untouched.trans found)
  have outside := apart lies.located lead
  have lies' : c.shipped.HasAt (folder p.source) here e :=
    hasAt_archived lies c.place isDirectory outside _
  have lies'' : c.finished.HasAt (folder p.source) here e :=
    hasAt_archived lies' c.place' isDirectory (parent ▸ outside) _
  have inside : e.IsSound := sound.at? below
  have proper : ∀ n ∈ names, Disk.isName n := fun n member => by
    obtain ⟨f, child⟩ := Option.isSome_iff_exists.mp ((package.mem_iff n).mp member).1
    exact inside.isName (inside.child?_eq_some_iff.mp child)
  obtain ⟨src, -, inputs, -⟩ := isName_parts
  have contents : p.sourceContents c.files = contentsIn p.source ("src" :: names) := by
    rw [files, sourceContents_eq p fun n member => (Disk.isName_iff.mp (proper n member)).2.2.2]
  have packs := c.packs
  rw [contents] at packs
  refine ⟨e, _, _, found, lies''.leads, complete_of_check c.checked found ((package.mem_iff _).mp toml).1,
    rfl, c.entry?_source, c.entry?_inputs, .of_lists inside package ?_ ?_⟩
  · rw [contents]
    exact lists_packing lies c.place isDirectory outside inside (by simpa using ⟨src, proper⟩) packs
  · exact lists_packing lies' c.place' isDirectory (parent ▸ outside) inside (by simpa using inputs)
      c.packs'

/-- A tree with a readme besides is shipped to a new directory beside it. -/
theorem prepare_ships_beside :
    let nodes : List Node := [⟨0, "a"⟩]
    let t : Topology := ⟨"a:27736", 1⟩
    let scenario : Scenario := ⟨.standard, 10, 100, .text "inputs"⟩
    let fleet : Fleet := ⟨nodes, t, scenario, nodes.map (Fleet.place t scenario · Fleet.firstSlot)⟩
    let p : Pipeline := ⟨⟨fleet, "dir", none⟩, ⟨⟨none, none, none⟩, []⟩, "tree", false, .skipFailed⟩
    let tree : Files.Entry := .directory [("readme", .file "text"),
      ("src", .directory [("main", .file "code"), ("bin", .directory [("tool", .file "more")])]),
      ("Cargo.lock", .file "lock"), ("Cargo.toml", .file "package"),
      ("inputs", .directory [("first", .file "0")])]
    let d : Disk := ⟨.directory [("tree", tree)], "/", "/", "/tmp", []⟩
    let g : Progress := { session := .new [] d "1" }
    ∃ g' source inputs, exec (p.prepare (.text "beside")) g = (.ok ⟨⟩, g') ∧
      g'.session.disk.entry? (join "beside" sourceArchive) = some (.archive source) ∧
      g'.session.disk.entry? (join "beside" inputsArchive) = some (.archive inputs) ∧
      Ships tree source inputs := by
  intro nodes t scenario fleet p tree d g
  have found : g.session.disk.entry? (folder p.source) = some tree :=
    Disk.entry?_eq_some_iff.mpr ⟨["tree"], by decide +kernel, rfl⟩
  have lies : (d.makeDirectories "beside").2.HasAt (folder p.source) ["tree"] tree := by
    refine ⟨by decide +kernel, ?_⟩
    simp only [d, tree]
    with_unfolding_all rfl
  have outside : g.session.disk.Outside "beside" p.source := by
    refine ⟨fun {here there} located located' => ?_, lies.leads.trans found.symm⟩
    have beside : (d.makeDirectories "beside").2.locate (folder "beside") = .ok ["beside"] := by
      decide +kernel
    obtain rfl := Except.ok.inj (lies.located.symm.trans located)
    obtain rfl := Except.ok.inj (beside.symm.trans located')
    decide +kernel
  have sound : g.session.disk.root.IsSound := by decide +kernel
  have own : OwnPattern (join p.source packagePattern) :=
    .joined (.plain (by decide +kernel)) (.inl (by decide +kernel)) (by decide +kernel)
      (Files.matchesItself_of_notMem (by decide +kernel))
  obtain ⟨files, checked⟩ := (check_ok_iff sound found rfl).mpr
    ⟨⟨⟨_, rfl, rfl⟩, rfl, ⟨_, rfl, rfl⟩⟩, own, by decide +kernel⟩
  have globbed : Files.glob g.session.disk (join p.source packagePattern) =
      .ok ["tree/Cargo.lock", "tree/Cargo.toml"] := by decide +kernel
  have listed : p.findPackageFiles g.session.disk = .ok ["tree/Cargo.lock", "tree/Cargo.toml"] := by
    rw [findPackageFiles, globbed]
    exact congrArg Except.ok (List.mergeSort_of_pairwise (by decide +kernel))
  obtain rfl := Except.ok.inj ((check_eq_ok_iff.mp checked).1.symm.trans listed)
  have there : (d.makeDirectories "beside").2.isDirectory "beside" := by decide +kernel
  have located : (d.makeDirectories "beside").2.locate "beside" = .ok ["beside"] := by decide +kernel
  obtain ⟨place, place'⟩ :=
    places there located (by decide +kernel) (by decide +kernel) (by decide +kernel)
  have made_sound : (d.makeDirectories "beside").2.root.IsSound := by decide +kernel
  let src : Files.Entry :=
    .directory [("main", .file "code"), ("bin", .directory [("tool", .file "more")])]
  have packable : src.IsPackable (["beside"] ++ [sourceArchive]) ["tree", "src"] p.sourcePath := by
    have bin : (Files.Entry.directory [("tool", .file "more")]).IsPackable (["beside"] ++ [sourceArchive])
        (["tree", "src"] ++ ["bin"]) (p.sourcePath ++ "/" ++ "bin") := by
      rw [Files.Entry.isPackable_iff_of_directory (by decide +kernel) (by decide +kernel)]
      simp only [List.forall_mem_singleton]
      rw [Files.Entry.isPackable_iff_of_file (by simp [Files.Entry.kind]) (by decide +kernel)]
      decide +kernel
    rw [Files.Entry.isPackable_iff_of_directory (by decide +kernel) (by decide +kernel)]
    simp only [List.forall_mem_cons, List.not_mem_nil, false_implies, implies_true, and_true]
    rw [Files.Entry.isPackable_iff_of_file (by simp [Files.Entry.kind]) (by decide +kernel)]
    exact ⟨by decide +kernel, by decide +kernel, bin⟩
  have packs : (packing (d.makeDirectories "beside").2 (["beside"] ++ [sourceArchive])
      (p.sourceContents ["tree/Cargo.lock", "tree/Cargo.toml"])).outcome = .ok () := by
    refine Files.Packing.all_ok_iff.mpr (List.forall_mem_map.mpr (List.forall_mem_cons.mpr ⟨?_, ?_⟩))
    · have lies : (begun (d.makeDirectories "beside").2 (["beside"] ++ [sourceArchive])).HasAt p.sourcePath
          ["tree", "src"] src := by
        refine ⟨by decide +kernel, ?_⟩
        simp only [d, tree]
        with_unfolding_all rfl
      obtain ⟨above, there, -⟩ := place.above
      exact (Disk.pack_ok_iff (begun_sound made_sound (by decide +kernel))
        (Files.Entry.at?_put there) (Files.Entry.isPlain_torn _).file _ _).mpr ⟨_, _, lies, packable⟩
    · decide +kernel
  have course : p.Course "beside" g.session.disk :=
    ⟨_, checked, _, Prod.ext (by decide +kernel) rfl, _, _, place, packs, _, _,
      Place.archived place _ place' (by decide +kernel), by decide +kernel⟩
  have ran := exec_prepare_ok_iff.mpr ⟨course, rfl⟩
  obtain ⟨e, source, inputs, found', -, -, -, archive, archive', ships⟩ :=
    prepare_ships sound (by decide +kernel) outside ran
  obtain rfl := Option.some.inj (found.symm.trans found')
  exact ⟨_, source, inputs, ran, archive, archive', ships⟩

end Deploy.Pipeline
end Flotilla
