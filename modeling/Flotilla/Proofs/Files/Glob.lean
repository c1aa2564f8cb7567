import Flotilla.Files.Glob
import Flotilla.Proofs.Files.Folder

/-! Which paths a pattern finds. A pattern is taken apart from its end, and what is found for the part
before a name is joined to the names that match: a path is found as it is written only if it is what
such joining gives. -/
namespace Flotilla.Files
open Disk

theorem matches_many (cs : List Char) : matchesWildcards [.many] cs = true := by
  induction cs with
  | nil => simp [matchesWildcards]
  | cons c r ih => rw [matchesWildcards, ih, Bool.or_true]

theorem matches_prefix_iff (front cs : List Char) :
    matchesWildcards (front.map Wildcard.char ++ [.many]) cs = true ↔ front <+: cs := by
  induction front generalizing cs with
  | nil => simpa using matches_many cs
  | cons c front ih =>
    cases cs with
    | nil => simp [matchesWildcards]
    | cons x r =>
      rw [List.map_cons, List.cons_append, matchesWildcards, Bool.and_eq_true, ih,
        List.cons_prefix_cons]
      · rw [Wildcard.hasOne, beq_iff_eq]
        exact and_congr eq_comm Iff.rfl
      · intro many
        cases many

theorem matches_star {ws : List Wildcard} {cs : List Char} (h : matchesWildcards ws cs = true) :
    matchesWildcards (.many :: ws) cs = true := by
  cases cs <;> rw [matchesWildcards, h]
  rfl

def MatchesItself (name : String) : Prop :=
  matchesWildcards (wildcards name.toList) name.toList = true

instance (name : String) : Decidable (MatchesItself name) := by
  unfold MatchesItself
  infer_instance

theorem wildcardsFrom_cons {fuel : Nat} {c : Char} (plain : c ≠ '*' ∧ c ≠ '?' ∧ c ≠ '[')
    (r : List Char) : wildcardsFrom (fuel + 1) (c :: r) = .char c :: wildcardsFrom fuel r := by
  rw [wildcardsFrom] <;> grind

theorem matchesItself_of_notMem {name : String} (h : '[' ∉ name.toList) : MatchesItself name := by
  rw [MatchesItself, wildcards]
  generalize name.toList = cs at h ⊢
  induction cs with
  | nil => simp [wildcardsFrom, matchesWildcards]
  | cons c r ih =>
    rw [List.mem_cons, not_or] at h
    have rest := ih h.2
    rw [List.length_cons]
    by_cases star : c = '*'
    · subst star
      rw [wildcardsFrom, matchesWildcards, matches_star rest, Bool.or_true]
    · by_cases question : c = '?'
      · subst question
        rw [wildcardsFrom, matchesWildcards, rest] <;> simp [Wildcard.hasOne]
      · rw [wildcardsFrom_cons ⟨star, question, Ne.symm h.1⟩, matchesWildcards, rest] <;>
          simp [Wildcard.hasOne]

theorem hasWildcard_iff {s : String} :
    hasWildcard s = true ↔ '*' ∈ s.toList ∨ '?' ∈ s.toList ∨ '[' ∈ s.toList := by
  rw [hasWildcard, List.any_eq_true]
  constructor
  · rintro ⟨c, member, special⟩
    rw [Bool.or_eq_true, Bool.or_eq_true, beq_iff_eq, beq_iff_eq, beq_iff_eq] at special
    rcases special with (rfl | rfl) | rfl
    · exact .inl member
    · exact .inr (.inl member)
    · exact .inr (.inr member)
  · rintro (member | member | member) <;> exact ⟨_, member, rfl⟩

def answers (pattern n : String) : Bool :=
  (isHidden pattern || !isHidden n) && matchesWildcards (wildcards pattern.toList) n.toList

theorem answers_self {name : String} : answers name name = true ↔ MatchesItself name := by
  rw [answers, MatchesItself, Bool.or_not_self, Bool.true_and]

def namesFound (d : Disk) (onlyDirectories : Bool) (name directory : String) : List String :=
  if hasWildcard name then
    ((((d.entry? (folder directory)).map Entry.entries).getD []).filter fun e =>
      !onlyDirectories || e.2.isDirectory).map (·.1) |>.filter (answers name)
  else if name.isEmpty then (if d.isDirectory directory then [name] else [])
  else if d.isPresent (join directory name) then [name] else []

def directoriesFrom (d : Disk) (fuel : Nat) (pattern : String) : Except FileFault (List String) :=
  let directory := directoryName pattern
  if directory.isEmpty then .ok [""]
  else if directory != pattern && hasWildcard directory then globFrom d fuel true directory
  else .ok [directory]

theorem hasNul_folder {a : String} (clean : hasNul a = false) : hasNul (folder a) = false := by
  rw [folder]
  split
  · decide +kernel
  · exact clean

theorem namesLike_eq {d : Disk} {onlyDirectories : Bool} {name a : String} (clean : hasNul a = false)
    (wild : hasWildcard name = true) :
    namesLike d a name onlyDirectories = .ok (namesFound d onlyDirectories name a) := by
  have clean' := hasNul_folder clean
  rw [folder] at clean'
  rw [namesLike, namesFound, if_pos wild]
  dsimp only
  rw [if_neg (by simpa using clean'), folder]
  congr 1
  cases d.entry? (if a.isEmpty then "." else a) <;> rfl

theorem search_eq {d : Disk} {onlyDirectories : Bool} {name : String} {ds : List String}
    (clean : ∀ a ∈ ds, hasNul a = false) :
    (do
      let found ← ds.mapM fun directory => do
        let names ←
          if hasWildcard name then namesLike d directory name onlyDirectories
          else if name.isEmpty then pure (if d.isDirectory directory then [name] else [])
          else pure (if d.isPresent (join directory name) then [name] else [])
        return names.map (join directory)
      return found.flatten : Except FileFault (List String)) =
      .ok (ds.flatMap fun a => (namesFound d onlyDirectories name a).map (join a)) := by
  rw [mapM_eq_ok (g := fun a => (namesFound d onlyDirectories name a).map (join a))]
  · rw [List.flatMap_def]
    rfl
  · intro a member
    by_cases wild : hasWildcard name = true
    · rw [if_pos wild, namesLike_eq (clean a member) wild]
      rfl
    · rw [if_neg wild, namesFound, if_neg wild]
      split <;> rfl

theorem globFrom_succ {d : Disk} {fuel : Nat} {onlyDirectories : Bool} {pattern : String}
    (wild : hasWildcard pattern = true) {ds : List String}
    (above : directoriesFrom d fuel pattern = .ok ds) (clean : ∀ a ∈ ds, hasNul a = false) :
    globFrom d (fuel + 1) onlyDirectories pattern = .ok (ds.flatMap fun a =>
      (namesFound d onlyDirectories (baseName pattern) a).map (join a)) := by
  rw [← search_eq clean, globFrom]
  dsimp only
  rw [if_neg (by simpa using wild)]
  rw [directoriesFrom] at above
  split at above
  · next empty =>
    obtain rfl := Except.ok.inj above
    rw [if_pos empty]
    rfl
  · next written =>
    rw [if_neg written]
    split at above
    · next deeper =>
      rw [if_pos deeper, above]
      rfl
    · next plain =>
      obtain rfl := Except.ok.inj above
      rw [if_neg plain]
      rfl

theorem inner_of_namesFound {d : Disk} (sound : d.root.IsSound) {onlyDirectories : Bool}
    {name a n : String} (found : n ∈ namesFound d onlyDirectories name a) : isName n ∨ n = name := by
  rw [namesFound] at found
  split at found
  · left
    obtain ⟨listed, -⟩ := List.mem_filter.mp found
    obtain ⟨c, member, rfl⟩ := List.mem_map.mp listed
    have member := (List.mem_filter.mp member).1
    cases there : d.entry? (folder a) with
    | none =>
      rw [there] at member
      cases member
    | some e =>
      rw [there] at member
      obtain ⟨l, -, below⟩ := entry?_eq_some_iff.mp there
      exact (sound.at? below).isName member
  · right
    split at found <;> split at found <;> simp_all

theorem notMem_of_namesFound {d : Disk} (sound : d.root.IsSound) {onlyDirectories : Bool}
    {name a n : String} (inner : '/' ∉ name.toList) (found : n ∈ namesFound d onlyDirectories name a) :
    '/' ∉ n.toList := by
  rcases inner_of_namesFound sound found with proper | rfl
  · exact (isName_iff.mp proper).2.2.2
  · exact inner

theorem hasNul_parts {p : String} (clean : hasNul p = false) :
    hasNul (directoryName p) = false ∧ hasNul (baseName p) = false := by
  simp only [← Bool.not_eq_true, hasNul_iff] at clean ⊢
  exact ⟨fun member => clean (mem_directoryName member), fun member => clean (mem_baseName member)⟩

/-- What is found for a clean pattern with a name at its end. -/
def Tidy (p : String) : Prop := IsBare p ∧ hasNul p = false

theorem tidy_join {a n : String} (inner : '/' ∉ n.toList) (written : n ≠ "")
    (clean : hasNul n = false) (tidy : Tidy a) : Tidy (join a n) :=
  ⟨join_isBare inner written a, hasNul_join inner tidy.2 clean⟩

theorem exists_wildcard {p : String} (wild : hasWildcard p = true) : ∃ c ∈ p.toList, c ≠ '/' := by
  rcases hasWildcard_iff.mp wild with member | member | member <;> exact ⟨_, member, by decide⟩

theorem directoriesFrom_ok (d : Disk) (fuel : Nat) {p : String} (clean : hasNul p = false)
    (deeper : ∀ q, Tidy q → ∃ found, globFrom d fuel true q = .ok found ∧ ∀ a ∈ found, Tidy a) :
    ∃ ds, directoriesFrom d fuel p = .ok ds ∧ ∀ a ∈ ds, Tidy a := by
  have tidy : Tidy (directoryName p) := ⟨directoryName_isBare p, (hasNul_parts clean).1⟩
  rw [directoriesFrom]
  split
  · exact ⟨_, rfl, by simp [Tidy, IsBare]; decide +kernel⟩
  · split
    · exact deeper _ tidy
    · exact ⟨_, rfl, by simpa using tidy⟩

theorem globFrom_ok {d : Disk} (sound : d.root.IsSound) (fuel : Nat) (onlyDirectories : Bool)
    {p : String} (tidy : Tidy p) :
    ∃ found, globFrom d fuel onlyDirectories p = .ok found ∧ ∀ q ∈ found, Tidy q := by
  induction fuel generalizing onlyDirectories p with
  | zero => exact ⟨[], rfl, by simp⟩
  | succ fuel ih =>
    by_cases wild : hasWildcard p = true
    · obtain ⟨ds, above, tidy'⟩ := directoriesFrom_ok d fuel tidy.2 fun q => ih true
      refine ⟨_, globFrom_succ wild above fun a member => (tidy' a member).2, fun q found => ?_⟩
      obtain ⟨a, member, found⟩ := List.mem_flatMap.mp found
      obtain ⟨n, named, rfl⟩ := List.mem_map.mp found
      obtain ⟨c, written, other⟩ := exists_wildcard wild
      have proper : n ≠ "" ∧ hasNul n = false := by
        rcases inner_of_namesFound sound named with proper | rfl
        · obtain ⟨dots, -, clean, -⟩ := isName_iff.mp proper
          exact ⟨ne_empty_of_proper dots, clean⟩
        · exact ⟨baseName_ne_empty tidy.1 other written, (hasNul_parts tidy.2).2⟩
      exact tidy_join (notMem_of_namesFound sound (notMem_baseName p) named) proper.1 proper.2
        (tidy' a member)
    · refine ⟨_, by rw [globFrom]; dsimp only; rw [if_pos (by simpa using wild)], fun q found => ?_⟩
      split at found <;> simp_all

/-- A pattern that is met by its own text: where it has wildcards, the names that hold them match
themselves, and one slash stands before each name from there on. -/
inductive OwnPattern : String → Prop
  | plain {p : String} : hasWildcard p = false → OwnPattern p
  | joined {a n : String} : OwnPattern a → IsBare a → '/' ∉ n.toList → MatchesItself n →
      OwnPattern (join a n)

theorem ownPattern_join_iff {a n : String} (bare : IsBare a) (inner : '/' ∉ n.toList)
    (wild : hasWildcard (join a n) = true) : OwnPattern (join a n) ↔ OwnPattern a ∧ MatchesItself n := by
  constructor
  · intro own
    generalize whole : join a n = p at own wild
    cases own with
    | plain plain =>
      rw [plain] at wild
      cases wild
    | joined own' bare' inner' itself =>
      obtain ⟨leads, rfl⟩ := (join_eq_iff inner inner').mp whole
      obtain rfl := lead_inj bare bare' leads
      exact ⟨own', itself⟩
  · rintro ⟨own, itself⟩
    exact .joined own bare inner itself

section
variable {d : Disk}

theorem dots_of_hasWildcard {n : String} (wild : hasWildcard n = true) : isDots n = false := by
  rw [← Bool.not_eq_true]
  intro dots
  obtain rfl | rfl | rfl : n = "" ∨ n = "." ∨ n = ".." := by simpa [isDots, or_assoc] using dots
  all_goals exact absurd wild (by decide +kernel)

theorem mem_namesFound_self_iff {a n : String} (inner : '/' ∉ n.toList)
    (written : n ≠ "") (clean : hasNul n = false) (there : d.isDirectory (join a n) = true) :
    n ∈ namesFound d true n a ↔ MatchesItself n := by
  have present := isPresent_of_isDirectory there
  rw [namesFound]
  split
  · next wild =>
    rw [List.mem_filter, answers_self]
    refine and_iff_right ?_
    have proper := isName_of_join inner (dots_of_hasWildcard wild) clean present
    obtain ⟨c, found, isDirectory⟩ := isDirectory_iff.mp there
    rw [entry?_join proper (checkPath_of_isPresent present)] at found
    obtain ⟨e, above, child⟩ := Option.bind_eq_some_iff.mp found
    have listed : (n, c) ∈ e.entries := by
      obtain ⟨front, rest, parts, -⟩ := List.lookup_eq_some_iff.mp child
      simp [parts]
    rw [above]
    exact List.mem_map.mpr ⟨(n, c), List.mem_filter.mpr
      ⟨listed, by simpa using c.isDirectory_iff.mpr isDirectory⟩, rfl⟩
  · next plain =>
    rw [if_neg (by simpa using written)]
    refine iff_of_true (List.mem_singleton_self n) (matchesItself_of_notMem fun bracket => plain ?_)
    exact hasWildcard_iff.mpr (.inr (.inr bracket))

theorem mem_found_iff (sound : d.root.IsSound) {b n : String} {ds : List String}
    (tidy : ∀ a ∈ ds, Tidy a) (bare : IsBare b) (inner : '/' ∉ n.toList) :
    join b n ∈ (ds.flatMap fun a => (namesFound d true n a).map (join a)) ↔
      b ∈ ds ∧ n ∈ namesFound d true n b := by
  simp only [List.mem_flatMap, List.mem_map]
  constructor
  · rintro ⟨a, member, m, named, same⟩
    obtain ⟨leads, rfl⟩ := (join_eq_iff (notMem_of_namesFound sound inner named) inner).mp same
    obtain rfl := lead_inj (tidy a member).1 bare leads
    exact ⟨member, named⟩
  · rintro ⟨member, named⟩
    exact ⟨b, member, n, named, rfl⟩

theorem mem_directoriesFrom_iff {fuel : Nat} {p : String} {ds : List String}
    (above : directoriesFrom d fuel p = .ok ds) (other : directoryName p ≠ p)
    (deeper : hasWildcard (directoryName p) = true → ∀ found,
      globFrom d fuel true (directoryName p) = .ok found →
        (directoryName p ∈ found ↔ OwnPattern (directoryName p))) :
    directoryName p ∈ ds ↔ OwnPattern (directoryName p) := by
  rw [directoriesFrom] at above
  split at above
  · next empty =>
    rw [String.isEmpty_iff.mp empty]
    obtain rfl := Except.ok.inj above
    exact iff_of_true (List.mem_singleton_self _) (.plain (by decide +kernel))
  · split at above
    · next wild =>
      rw [Bool.and_eq_true] at wild
      exact deeper wild.2 ds above
    · next plain =>
      obtain rfl := Except.ok.inj above
      exact iff_of_true (List.mem_singleton_self _) (.plain (by simpa [other] using plain))

/-- A directory is found by its own text as a pattern only if that text is met by itself. -/
theorem mem_globFrom_iff (sound : d.root.IsSound) {fuel : Nat} {p : String} (tidy : Tidy p)
    (wild : hasWildcard p = true) (long : p.length < fuel) (there : d.isDirectory p = true)
    {found : List String} (h : globFrom d fuel true p = .ok found) : p ∈ found ↔ OwnPattern p := by
  induction fuel generalizing p found with
  | zero => omega
  | succ fuel ih =>
    obtain ⟨ds, above, tidy'⟩ := directoriesFrom_ok d fuel tidy.2 fun q =>
      globFrom_ok sound fuel true
    rw [globFrom_succ wild above fun a member => (tidy' a member).2] at h
    obtain rfl := Except.ok.inj h
    have bare := directoryName_isBare p
    have inner := notMem_baseName p
    -- A path is found only as the joining of its parts, which drops what is superfluous in it.
    by_cases same : join (directoryName p) (baseName p) = p
    · obtain ⟨c, written, other⟩ := exists_wildcard wild
      have named := baseName_ne_empty tidy.1 other written
      have shorter := length_lt_join inner named (directoryName p)
      rw [same] at shorter
      have there' : d.isDirectory (join (directoryName p) (baseName p)) = true := by rwa [same]
      have itself := mem_namesFound_self_iff inner named (hasNul_parts tidy.2).2 there'
      have own : directoryName p ∈ ds ↔ OwnPattern (directoryName p) := by
        refine mem_directoriesFrom_iff above (fun eq => ?_) fun wild' found' h' => ?_
        · rw [eq] at shorter
          omega
        · have there'' := isDirectory_of_join inner (isPresent_of_isDirectory there')
          rw [folder_of_ne] at there''
          · exact ih ⟨bare, (hasNul_parts tidy.2).1⟩ wild' (by omega) there'' h'
          · intro empty
            rw [empty] at wild'
            exact absurd wild' (by decide +kernel)
      have parts := mem_found_iff sound tidy' bare inner
      rw [same, own, itself] at parts
      rw [parts, ← ownPattern_join_iff bare inner (by rwa [same]), same]
    · -- Whatever is joined is taken apart into what it has been joined from.
      have apart {a n : String} (bare' : IsBare a) (inner' : '/' ∉ n.toList) : join a n ≠ p := by
        rintro rfl
        rw [directoryName_join_eq inner', directoryName_lead bare', baseName_join inner'] at same
        exact same rfl
      refine iff_of_false (fun member => ?_) fun own => ?_
      · simp only [List.mem_flatMap, List.mem_map] at member
        obtain ⟨a, listed, n, named, same'⟩ := member
        exact apart (tidy' a listed).1 (notMem_of_namesFound sound inner named) same'
      · cases own with
        | plain plain =>
          rw [plain] at wild
          cases wild
        | joined _ bare' inner' _ => exact apart bare' inner' rfl

theorem ne_empty_of_hasWildcard {p : String} (wild : hasWildcard p = true) : p ≠ "" := by
  rintro rfl
  exact absurd wild (by decide +kernel)

theorem hasWildcard_join {n : String} (wild : hasWildcard n = true) (a : String) :
    hasWildcard (join a n) = true := by
  obtain ⟨front, ends⟩ := join_ends a n
  simp only [hasWildcard_iff, ends, List.mem_append] at wild ⊢
  exact wild.imp .inr (.imp .inr .inr)

/-- The names that a pattern finds in a directory, if it finds the directory. -/
theorem glob_join (sound : d.root.IsSound) {a pattern : String} (clean : hasNul (join a pattern) = false)
    (inner : '/' ∉ pattern.toList) (wild : hasWildcard pattern = true)
    (itself : MatchesItself pattern) (there : d.isDirectory (folder a) = true) :
    ∃ found, glob d (join a pattern) = .ok found ∧ ∀ n, '/' ∉ n.toList → (join a n ∈ found ↔
      OwnPattern (join a pattern) ∧ n ∈ namesFound d false pattern a) := by
  have wild' := hasWildcard_join wild a
  obtain ⟨ds, above, tidy⟩ := directoriesFrom_ok d (join a pattern).length clean fun q =>
    globFrom_ok sound _ true
  refine ⟨_, globFrom_succ wild' above fun b member => (tidy b member).2, fun n inner' => ?_⟩
  obtain ⟨b, chosen⟩ : ∃ b, directoryName (join a pattern) = b := ⟨_, rfl⟩
  have bare : IsBare b := chosen ▸ directoryName_isBare _
  -- Only a bare path that leads its names as `a` does can be joined to the same paths.
  have only {c m n : String} (bare' : IsBare c) (inner : '/' ∉ m.toList) (inner' : '/' ∉ n.toList)
      (same : join c m = join a n) : c = b ∧ m = n ∧ lead b = lead a := by
    obtain ⟨leads, names⟩ := (join_eq_iff inner inner').mp same
    have : c = b := by
      rw [← chosen, directoryName_join_eq (by assumption), ← leads, directoryName_lead bare']
    exact ⟨this, names, this ▸ leads⟩
  have own : OwnPattern (join a pattern) ↔ lead b = lead a ∧ OwnPattern b := by
    constructor
    · intro own
      generalize whole : join a pattern = p at own wild'
      cases own with
      | plain plain =>
        rw [plain] at wild'
        cases wild'
      | joined own' bare' inner₂ _ =>
        obtain ⟨rfl, -, leads⟩ := only bare' inner₂ inner whole.symm
        exact ⟨leads, own'⟩
    · rintro ⟨leads, own'⟩
      rw [← (join_eq_iff inner inner).mpr ⟨leads, rfl⟩]
      exact .joined own' bare inner itself
  have found : lead b = lead a → (b ∈ ds ↔ OwnPattern b) ∧
      namesFound d false pattern b = namesFound d false pattern a := by
    intro leads
    have same := entry?_folder_of_lead bare leads there
    refine ⟨?_, by rw [namesFound, namesFound, if_pos wild, if_pos wild, same]⟩
    have shorter := length_lt_join inner (ne_empty_of_hasWildcard wild) b
    rw [(join_eq_iff inner inner).mpr ⟨leads, rfl⟩] at shorter
    have step := mem_directoriesFrom_iff above
    rw [chosen] at step
    refine step (fun eq => ?_) fun wild'' found' h => ?_
    · rw [← eq] at shorter
      omega
    · refine mem_globFrom_iff sound ⟨bare, ?_⟩ wild'' shorter ?_ h
      · rw [← chosen]
        exact (hasNul_parts clean).1
      · rw [Disk.isDirectory, ← folder_of_ne (ne_empty_of_hasWildcard wild''), same]
        exact there
  rw [baseName_join inner, own, and_assoc]
  simp only [List.mem_flatMap, List.mem_map]
  constructor
  · rintro ⟨c, member, m, named, same⟩
    have inner₂ : '/' ∉ m.toList := notMem_of_namesFound sound inner named
    obtain ⟨rfl, rfl, leads⟩ := only (tidy c member).1 inner₂ inner' same
    rw [← (found leads).1, ← (found leads).2]
    exact ⟨leads, member, named⟩
  · rintro ⟨leads, own', named⟩
    rw [← (found leads).2] at named
    exact ⟨b, (found leads).1.mpr own', n, named, (join_eq_iff inner' inner').mpr ⟨leads, rfl⟩⟩

theorem hasWildcard_lead (a : String) : hasWildcard (lead a) = hasWildcard a := by
  rw [lead]
  split
  · rfl
  · simp [hasWildcard]

theorem glob_plain (sound : d.root.IsSound) {a pattern : String} (clean : hasNul (join a pattern) = false)
    (inner : '/' ∉ pattern.toList) (wild : hasWildcard pattern = true) (plain : hasWildcard a = false)
    {found : List String} (h : glob d (join a pattern) = .ok found)
    (there : d.isDirectory (folder a) = true) {n : String} (inner' : '/' ∉ n.toList)
    (some : join a n ∈ found) : found = (namesFound d false pattern a).map (join a) := by
  obtain ⟨b, chosen⟩ : ∃ b, directoryName (join a pattern) = b := ⟨_, rfl⟩
  have bare : IsBare b := chosen ▸ directoryName_isBare _
  have plain' : hasWildcard b = false := by
    rw [← Bool.not_eq_true, hasWildcard_iff]
    rw [← hasWildcard_lead, ← Bool.not_eq_true, hasWildcard_iff] at plain
    have inside {c : Char} (member : c ∈ b.toList) : c ∈ (lead a).toList := by
      rw [← chosen, directoryName_join_eq inner] at member
      exact mem_directoryName member
    exact fun h => plain (h.imp inside (.imp inside inside))
  have above : directoriesFrom d (join a pattern).length (join a pattern) = .ok [b] := by
    rw [directoriesFrom, chosen]
    split
    · next empty => rw [String.isEmpty_iff.mp empty]
    · rw [plain', Bool.and_false, if_neg Bool.false_ne_true]
  have clean' : ∀ c ∈ [b], hasNul c = false := by
    simpa [← chosen] using (hasNul_parts clean).1
  rw [glob, globFrom_succ (hasWildcard_join wild a) above clean'] at h
  obtain rfl := Except.ok.inj h
  rw [List.flatMap_singleton, baseName_join inner] at some ⊢
  obtain ⟨m, named, same⟩ := List.mem_map.mp some
  obtain ⟨leads, -⟩ := (join_eq_iff (notMem_of_namesFound sound inner named) inner').mp same
  have alike : namesFound d false pattern b = namesFound d false pattern a := by
    rw [namesFound, namesFound, if_pos wild, if_pos wild, entry?_folder_of_lead bare leads there]
  rw [← alike]
  exact List.map_congr_left fun k named =>
    let inner := notMem_of_namesFound sound inner named
    (join_eq_iff inner inner).mpr ⟨leads, rfl⟩

theorem nodup_namesFound (sound : d.root.IsSound) {a pattern : String}
    (wild : hasWildcard pattern = true) : (namesFound d false pattern a).Nodup := by
  rw [namesFound, if_pos wild]
  refine List.Pairwise.filter _ ?_
  cases found : d.entry? (folder a) with
  | none => exact .nil
  | some e =>
    obtain ⟨l, -, below⟩ := entry?_eq_some_iff.mp found
    exact (sound.at? below).nodup.sublist (List.filter_sublist.map _)

theorem mem_namesFound_iff {a pattern n : String} (wild : hasWildcard pattern = true) {e : Entry}
    (found : d.entry? (folder a) = some e) :
    n ∈ namesFound d false pattern a ↔ (e.child? n).isSome ∧ answers pattern n = true := by
  have listed : n ∈ e.entries.map (·.1) ↔ (e.child? n).isSome := by
    rw [Entry.child?]
    induction e.entries with
    | nil => simp
    | cons c r ih => by_cases same : n = c.1 <;> simp [same, ih]
  rw [namesFound, if_pos wild, found, List.mem_filter]
  simpa using and_congr_left' listed

end

end Flotilla.Files
