import Flotilla.Proofs.Deploy.Directory
import Flotilla.Proofs.Files.Disk
import Flotilla.Proofs.Shell.Login
import Flotilla.Proofs.Unit.Settings

/-! The place of a deployment on a host. The directory is named to the login shell, to file transfer and,
by way of the unit file, to the service manager, each of which makes a place of it in its own way. -/
namespace Flotilla.Deploy
open Shell Text

/-- Characters that let a word stand for the names of files. -/
def patterns : List Char := ['*', '?', '[']

/-- A path of proper names that a shell takes as it stands. -/
structure IsBelow (path : String) : Prop where
  plain : path.toList.all isPlain
  unpatterned : path.toList.all (!patterns.contains ·)
  proper : ∀ n ∈ splitOn '/' path, IsProper n
  start : path.toList.head? ≠ some '~' ∧ path.toList.head? ≠ some '#'

/-- The home directory, or a path from there, from the root, or from where one is. -/
def IsDirectory (d : String) : Prop :=
  d = "~" ∨ ∃ path, IsBelow path ∧ (d = "~/" ++ path ∨ d = "/" ++ path ∨ d = path)

/-- All that is told of the directory comes to one place for a login with the given home directory: a
change to it, the unit file, the steps that clear it, unpack in it and build in it, and the helper. -/
structure Plan.OnePlace (p : Plan) (i : Instance) (home : String) (place : List String) : Prop where
  entered : run home ("cd " ++ p.directory) = some ([], place)
  unit : ∃ path, isAbsolute path ∧ walk [] path = place ∧
    (Unit.setting? "WorkingDirectory" (Unit.file i p.directory)).map (Unit.fillHome home) =
      some path ∧
    (Unit.setting? "ExecStart" (Unit.file i p.directory)).map (Unit.fillHome home) =
      some (path ++ "/target/release/daemon")
  cleared : find home (walk [] home) p.directory = place ∧ ∀ built n,
    ∃ c, p.command built n .clean = some c ∧ run home c.line =
      some ([⟨["rm", "-rf", p.directory], walk [] home⟩, ⟨["mkdir", p.directory], walk [] home⟩],
        walk [] home)
  unpacked : ∀ s archive,
    (s, archive) ∈ [(Step.distributeSource, sourceArchive), (.distributeInputs, inputsArchive)] →
    let path := p.directory ++ "/" ++ archive
    find home (walk [] home) path = archive :: place ∧ ∀ built n,
    ∃ c, p.command built n s = some c ∧ run home c.line =
        some ([⟨["tar", "-xzf", path, "-C", p.directory], walk [] home⟩,
          ⟨["rm", path], walk [] home⟩], walk [] home) ∧
      c.uploads.map (fun u => walk (walk [] home) (Command.remotePath u.remote)) = [archive :: place]
  built : ∀ built n, ∃ c, p.command built n .build = some c ∧ run home c.line =
    some ([⟨[".", "~/.cargo/env"], walk [] home⟩, ⟨["cargo", "build", "--release"], place⟩], place)
  helped : ∃ exports, (∀ x ∈ exports, x.words.head? = some "export") ∧
    run home (Unit.helper i p.directory).line =
      some (exports ++ [⟨["./target/release/helper"], place⟩], place)

namespace IsBelow
variable {path : String}

theorem ne_empty (h : IsBelow path) : path ≠ "" := by
  rintro rfl
  exact (h.proper "" (by decide)).1 rfl

theorem not_isAbsolute (h : IsBelow path) : ¬ isAbsolute path := by
  intro absolute
  obtain ⟨r, chars⟩ := List.head?_eq_some_iff.mp (of_decide_eq_true absolute)
  have first : "" ∈ splitOn '/' path := by simp [splitOn, chars, splitChars]
  exact (h.proper "" first).1 rfl

theorem not_namesHome (h : IsBelow path) : ¬ Files.NamesHome path := by
  rintro (rfl | ⟨r, rfl⟩)
  · exact h.start.1 rfl
  · exact h.start.1 (by simp)

theorem getLast?_splitOn (h : IsBelow path) : (splitOn '/' path).getLast? ≠ some "" := fun last =>
  (h.proper "" (List.mem_of_getLast? last)).1 rfl

end IsBelow

namespace IsDirectory
variable {d : String}

theorem isPlainWord (h : IsDirectory d) : IsPlainWord d := by
  obtain rfl | ⟨path, below, rfl | rfl | rfl⟩ := h
  · decide
  · exact IsPlainWord.append (w := "~/") (by decide) below.plain
  · exact IsPlainWord.append (w := "/") (by decide) below.plain
  · exact ⟨below.ne_empty, below.plain, below.start.2⟩

theorem getLast?_splitOn (h : IsDirectory d) : (splitOn '/' d).getLast? ≠ some "" := by
  have onwards (start : String) {path : String} (below : IsBelow path) :
      (splitOn '/' (start ++ "/" ++ path)).getLast? ≠ some "" := by
    rw [splitOn_below, List.getLast?_append]
    cases last : (splitOn '/' path).getLast? with
    | none =>
      rw [List.getLast?_eq_none_iff] at last
      exact absurd (List.map_eq_nil_iff.mp last) (splitChars_ne_nil '/' path.toList)
    | some n => simpa [last] using below.getLast?_splitOn
  obtain rfl | ⟨path, below, rfl | rfl | rfl⟩ := h
  · decide
  · exact onwards "~" below
  · exact onwards "" below
  · exact below.getLast?_splitOn

theorem dropTrailing_eq_self (h : IsDirectory d) : dropTrailing '/' d = d :=
  dropTrailing_of_getLast? h.getLast?_splitOn

theorem namesHome_iff (h : IsDirectory d) : Files.NamesHome d ↔ d.toList.head? = some '~' := by
  constructor
  · rintro (rfl | ⟨r, rfl⟩)
    · rfl
    · simp
  · intro tilde
    obtain alone | ⟨path, below, rfl | rfl | rfl⟩ := h
    · exact .inl alone
    · exact .inr ⟨path, rfl⟩
    · simp at tilde
    · exact absurd tilde below.start.1

end IsDirectory

theorem isAbsolute_expandTilde {d : String} (h : IsDirectory d)
    (begins : d.toList.head? = some '~' ∨ isAbsolute d) {home : String} (absolute : isAbsolute home) :
    isAbsolute (expandTilde home d) := by
  by_cases named : Files.NamesHome d
  · obtain rfl | ⟨r, rfl⟩ := named
    · exact absolute
    · rwa [expandTilde_tilde, isAbsolute_below (ne_empty_of_isAbsolute absolute)]
  · rw [expandTilde_eq_self named]
    exact begins.resolve_left fun tilde => named (h.namesHome_iff.mpr tilde)

theorem run_line {d : String} (plain : IsPlainWord d) {pieces : List Piece}
    (fits : ∀ q ∈ pieces, q.Fits) (home : String) : run home (Piece.line d pieces) =
      (commands (pieces.map (·.token d))).bind fun c => invoke home (walk [] home) (c.1 :: c.2) := by
  rw [run, Piece.tokens_line plain fits]
  rfl

theorem run_cd {d : String} (plain : IsPlainWord d) (home : String) : run home ("cd " ++ d) =
    if isOption d then none else some ([], find home (walk [] home) d) := by
  have line : "cd " ++ d = Piece.line d [Piece.word "cd", Piece.path ""] := by
    simp
  have fits : ∀ q ∈ [Piece.word "cd", Piece.path ""], q.Fits := by
    simp only [List.forall_mem_cons]
    exact ⟨Piece.fits_word (by decide), by simp [Piece.Fits], by simp⟩
  rw [line, run_line plain fits]
  simp [commands, invoke]

section
variable {d : String} (plain : IsPlainWord d) (home : String)
include plain

theorem run_clean : run home (Piece.line d Piece.clean) =
    some ([⟨["rm", "-rf", d], walk [] home⟩, ⟨["mkdir", d], walk [] home⟩], walk [] home) := by
  rw [run_line plain Piece.fits_clean]
  simp [Piece.clean, commands, invoke]

theorem run_unpack {archive : String} (h : ("/" ++ archive).toList.all isPlain) :
    run home (Piece.line d (Piece.unpack archive)) =
      some ([⟨["tar", "-xzf", d ++ "/" ++ archive, "-C", d], walk [] home⟩,
        ⟨["rm", d ++ "/" ++ archive], walk [] home⟩], walk [] home) := by
  rw [run_line plain (Piece.fits_unpack h)]
  simp [Piece.unpack, commands, invoke, String.append_assoc]

theorem run_build (operand : ¬ isOption d) : run home (Piece.line d Piece.build) =
    some ([⟨[".", "~/.cargo/env"], walk [] home⟩,
      ⟨["cargo", "build", "--release"], find home (walk [] home) d⟩], find home (walk [] home) d) := by
  rw [run_line plain Piece.fits_build]
  simp [Piece.build, commands, invoke, operand]

theorem run_helper (operand : ¬ isOption d) (i : Instance) :
    ∃ exports, (∀ x ∈ exports, x.words.head? = some "export") ∧
      run home (Piece.line d (Piece.helper i)) =
        some (exports ++ [⟨["./target/release/helper"], find home (walk [] home) d⟩],
          find home (walk [] home) d) := by
  refine ⟨i.bindings.helperEnvironment.map fun v =>
    ⟨["export", v.1 ++ "=" ++ v.2.shown], find home (walk [] home) d⟩, fun x hx => ?_, ?_⟩
  · obtain ⟨v, -, rfl⟩ := List.mem_map.mp hx
    rfl
  · rw [run_line plain (Piece.fits_helper i)]
    simp [Piece.helper, Piece.setting, Bindings.helperEnvironment, commands, invoke, operand]

end

theorem walk_upload {home d archive : String} (h : IsDirectory d) (absolute : isAbsolute home)
    (single : '/' ∉ archive.toList) :
    walk (walk [] home) (Command.remotePath (d ++ "/" ++ archive)) =
      find home (walk [] home) (d ++ "/" ++ archive) := by
  have slash : '/' ∈ (d ++ "/" ++ archive).toList := by simp
  refine walk_remotePath absolute (fun alone => ?_) fun r path => ?_
  · rw [alone] at slash
    exact absurd slash (by decide)
  · have named : Files.NamesHome d := (Files.namesHome_below d archive).mp (.inr ⟨r, path⟩)
    have chars : d.toList ++ '/' :: archive.toList = '~' :: '/' :: r.toList := by
      simpa using congrArg String.toList path
    obtain rfl | ⟨below, isBelow, rfl | rfl | rfl⟩ := h
    · obtain rfl : archive = r := String.toList_inj.mp (by simpa using chars)
      exact fun rooted => single (List.mem_of_head? (of_decide_eq_true rooted))
    · obtain rfl : below ++ "/" ++ archive = r := String.toList_inj.mp (by simpa using chars)
      rw [isAbsolute_below isBelow.ne_empty]
      exact isBelow.not_isAbsolute
    · simp at chars
    · exact absurd named isBelow.not_namesHome

theorem shipped {p : Plan} {home : String} (archive : String) (h : IsDirectory p.directory)
    (absolute : isAbsolute home) (written : expandTilde home p.directory ≠ "")
    (single : '/' ∉ archive.toList) (proper : IsProper archive)
    (chars : ("/" ++ archive).toList.all isPlain) :
    let path := p.directory ++ "/" ++ archive
    let place := find home (walk [] home) p.directory
    find home (walk [] home) path = archive :: place ∧
      ∀ file, run home (p.shipCommand archive file).line =
          some ([⟨["tar", "-xzf", path, "-C", p.directory], walk [] home⟩,
            ⟨["rm", path], walk [] home⟩], walk [] home) ∧
        (p.shipCommand archive file).uploads.map (fun u =>
          walk (walk [] home) (Command.remotePath u.remote)) = [archive :: place] := by
  have found := find_below written (walk [] home) single proper
  refine ⟨found, fun file => ⟨?_, ?_⟩⟩
  · rw [line_shipCommand, run_unpack h.isPlainWord home chars]
  · rw [← found, ← walk_upload h absolute single]
    rfl

theorem onePlace_of_unmarked {p : Plan} (h : IsDirectory p.directory)
    (begins : p.directory.toList.head? = some '~' ∨ isAbsolute p.directory)
    (unmarked : ¬ IsMarked Unit.homeMarker p.directory) (i : Instance) {home : String}
    (absolute : isAbsolute home) :
    p.OnePlace i home (find home (walk [] home) p.directory) := by
  have plain := h.isPlainWord
  have operand : ¬ isOption p.directory := by
    intro option
    have hyphen : p.directory.toList.head? = some '-' := of_decide_eq_true option
    obtain tilde | root := begins
    · simp [hyphen] at tilde
    · simp [isAbsolute, hyphen] at root
  have rooted := isAbsolute_expandTilde h begins absolute
  have written := ne_empty_of_isAbsolute rooted
  have oneLine := Unit.notMem_workingDirectory plain
  refine ⟨?_, ⟨expandTilde home p.directory, rooted, ?_, ?_, ?_⟩, ⟨rfl, ?_⟩, ?_, ?_, ?_⟩
  · rw [run_cd plain, if_neg operand]
  · exact (walk_absolute rooted _).symm
  · rw [Unit.workingDirectory_file i oneLine, Option.map_some, Unit.fillHome_workingDirectory unmarked]
  · rw [Unit.execStart_file i oneLine, Option.map_some, Unit.fillHome_daemon unmarked]
  · intro built n
    refine ⟨_, rfl, ?_⟩
    rw [line_cleanCommand, run_clean plain]
  · intro s archive mem
    simp only [List.mem_cons, Prod.mk.injEq, List.not_mem_nil, or_false] at mem
    obtain ⟨rfl, rfl⟩ | ⟨rfl, rfl⟩ := mem
    · obtain ⟨found, runs⟩ := shipped sourceArchive h absolute written (by decide) (by decide)
        (by decide)
      exact ⟨found, fun built _ => ⟨_, rfl, runs built.source⟩⟩
    · obtain ⟨found, runs⟩ := shipped inputsArchive h absolute written (by decide) (by decide)
        (by decide)
      exact ⟨found, fun built _ => ⟨_, rfl, runs built.inputs⟩⟩
  · intro built n
    refine ⟨_, rfl, ?_⟩
    rw [line_buildCommand, run_build plain home operand]
  · rw [line_helper]
    exact run_helper plain home operand i

/-- To a login whose home is the root, the directory leads by all that its path says. -/
theorem countIn_find {d : String} (h : IsDirectory d) :
    countIn '@' (find "/" [] d) = d.toList.count '@' := by
  have all {path : String} (below : IsBelow path) :
      countIn '@' (Files.normalNames [] (splitOn '/' path)) = path.toList.count '@' := by
    rw [normalNames_proper below.proper, List.append_nil, countIn_reverse, countIn_splitOn (by decide)]
  obtain rfl | ⟨path, below, rfl | rfl | rfl⟩ := h
  · rfl
  · have root : walk [] "/" = [] := by decide
    rw [find, expandTilde_tilde, walk_below (by decide), root, all below]
    simp
  · have outside : ¬ Files.NamesHome ("/" ++ path) := by
      rw [IsDirectory.namesHome_iff (.inr ⟨path, below, .inr (.inl rfl)⟩)]
      simp
    have names : splitOn '/' ("/" ++ path) = "" :: splitOn '/' path := splitOn_below "" path
    rw [find, expandTilde_eq_self outside, walk_nil, names]
    exact (all below).trans (by simp)
  · rw [find, expandTilde_eq_self below.not_namesHome, walk_nil, all below]

theorem unmarked_of_onePlace {p : Plan} (h : IsDirectory p.directory) {i : Instance} {place : List String}
    (one : p.OnePlace i "/" place) : ¬ IsMarked Unit.homeMarker p.directory := by
  intro marked
  have found : find "/" [] p.directory = place := one.cleared.1
  obtain ⟨path, -, walked, working, -⟩ := one.unit
  rw [Unit.workingDirectory_file i (Unit.notMem_workingDirectory h.isPlainWord), Option.map_some,
    Option.some.injEq] at working
  have told : countIn '@' place ≤ path.toList.count '@' := by
    have names := countIn_normalNames_le '@' [] (splitOn '/' path)
    rw [← walk_nil, walked, countIn_splitOn (by decide)] at names
    exact Nat.le_trans names (Nat.le_of_eq (Nat.zero_add _))
  have less := Unit.count_fillHome_lt marked
  rw [working, ← countIn_find h, found] at less
  omega

/-- Unit, shell and file transfer come to one place, whatever the home directory is, if the directory
starts from the home directory or the root and the marker for the home directory is not in it. -/
theorem Plan.onePlace_iff {p : Plan} {remote : String} (h : IsDirectory remote)
    (given : Unit.readDirectory (.text remote) = .ok p.directory) (i : Instance) :
    (∀ home, isAbsolute home → ∃ place, p.OnePlace i home place) ↔
      (remote.toList.head? = some '~' ∨ isAbsolute remote) ∧ ¬ IsMarked Unit.homeMarker remote := by
  have same : remote = p.directory := h.dropTrailing_eq_self.symm.trans (Except.ok.inj given)
  subst same
  constructor
  · intro one
    obtain ⟨place, one⟩ := one "/" rfl
    have unmarked := unmarked_of_onePlace h one
    refine ⟨?_, unmarked⟩
    rw [← h.namesHome_iff]
    by_cases named : Files.NamesHome p.directory
    · exact .inl named
    · obtain ⟨path, rooted, -, working, -⟩ := one.unit
      rw [Unit.workingDirectory_file i (Unit.notMem_workingDirectory h.isPlainWord), Option.map_some,
        Unit.fillHome_workingDirectory unmarked, expandTilde_eq_self named, Option.some.injEq] at working
      exact .inr (working ▸ rooted)
  · rintro ⟨begins, unmarked⟩ home absolute
    exact ⟨_, onePlace_of_unmarked h begins unmarked i absolute⟩

theorem Plan.onePlace_below_home :
    let t : Topology := ⟨"a:27736", 1⟩
    let scenario : Scenario := ⟨.standard, 10, 100, .text "inputs"⟩
    let i := Fleet.place t scenario ⟨0, "a"⟩ Fleet.firstSlot
    let p : Plan := ⟨⟨[⟨0, "a"⟩], t, scenario, [i]⟩, "~/block_chat", none⟩
    IsDirectory "~/block_chat" ∧ Unit.readDirectory (.text "~/block_chat") = .ok p.directory ∧
      ∀ home, isAbsolute home → ∃ place, p.OnePlace i home place := by
  have directory : IsDirectory "~/block_chat" :=
    .inr ⟨"block_chat", ⟨by decide, by decide, by decide, by decide⟩, .inl (by decide)⟩
  exact ⟨directory, rfl, (Plan.onePlace_iff directory rfl _).mpr (by decide)⟩

/-- A relative directory is below the home directory for the shell. The service manager is told the
relative path, which it takes for none. -/
theorem Plan.not_onePlace_relative :
    let t : Topology := ⟨"a:27736", 1⟩
    let scenario : Scenario := ⟨.standard, 10, 100, .text "inputs"⟩
    let i := Fleet.place t scenario ⟨0, "a"⟩ Fleet.firstSlot
    let p : Plan := ⟨⟨[⟨0, "a"⟩], t, scenario, [i]⟩, "block_chat", none⟩
    IsDirectory "block_chat" ∧ Unit.readDirectory (.text "block_chat") = .ok p.directory ∧
      run "/home/user" ("cd " ++ p.directory) = some ([], ["block_chat", "user", "home"]) ∧
      (Unit.setting? "WorkingDirectory" (Unit.file i p.directory)).map (Unit.fillHome "/home/user") =
        some "block_chat" ∧
      ¬ ∃ place, p.OnePlace i "/home/user" place := by
  intro t scenario i p
  have working : (Unit.setting? "WorkingDirectory" (Unit.file i p.directory)).map
      (Unit.fillHome "/home/user") = some "block_chat" := by
    rw [Unit.workingDirectory_file i (by decide)]
    decide
  refine ⟨.inr ⟨"block_chat", ⟨by decide, by decide, by decide, by decide⟩, .inr (.inr rfl)⟩, rfl, by decide,
    working, ?_⟩
  rintro ⟨place, one⟩
  obtain ⟨path, rooted, -, filled, -⟩ := one.unit
  rw [working, Option.some.injEq] at filled
  subst filled
  exact absurd rooted (by decide)

end Flotilla.Deploy
