import Flotilla.Files.Disk
import Flotilla.Proofs.Files.Tree
import Flotilla.Proofs.Steps
import Flotilla.Proofs.Text.Pieces

namespace Flotilla

namespace Text

theorem dropTrailing_of_getLast? {sep : Char} {s : String}
    (h : (splitOn sep s).getLast? ≠ some "") : dropTrailing sep s = s := by
  apply dropTrailing_of_ends
  intro ends
  obtain ⟨front, parts⟩ := List.getLast?_eq_some_iff.mp ends
  apply h
  rw [splitOn, parts, splitChars_append]
  simp [splitChars]

end Text

namespace Files.Disk
open Entry

def isDots (name : String) : Bool := name == "" || name == "." || name == ".."

theorem follow_cons (root : Entry) (here : List String) (name : String) (r : List String) :
    follow root here (name :: r) = follow root here [name] >>= fun l => follow root l r := by
  rw [follow, follow]
  cases root.at? here with
  | none => rfl
  | some e =>
    dsimp only
    split
    · rfl
    · split
      · rfl
      · split
        · rfl
        · split
          · rfl
          · split <;> rfl

theorem follow_append (root : Entry) (here a b : List String) :
    follow root here (a ++ b) = follow root here a >>= fun l => follow root l b := by
  induction a generalizing here with
  | nil => rfl
  | cons name r ih =>
    rw [List.cons_append, follow_cons, follow_cons root here name r]
    cases follow root here [name] with
    | error why => rfl
    | ok l => exact ih l

/-- A name leads from a directory to an entry of it, or it is made of dots. -/
theorem follow_singleton {root : Entry} {here : List String} {name : String} {l : List String} :
    follow root here [name] = .ok l ↔
      ∃ e, root.at? here = some e ∧ e.kind = .directory ∧
        if name = "" ∨ name = "." then l = here
        else if name = ".." then l = here.dropLast
        else isTooLong name = false ∧ (root.at? (here ++ [name])).isSome ∧ l = here ++ [name] := by
  rw [follow, at?_concat]
  cases root.at? here with
  | none => simp
  | some e =>
    have directory := e.isDirectory_iff
    simp only [follow]
    split <;> grind

theorem follow_stands {root root' : Entry} (stands : root.Stands root') {here l : List String}
    {ns : List String} (h : follow root here ns = .ok l) : follow root' here ns = .ok l := by
  induction ns generalizing here with
  | nil => exact h
  | cons name r ih =>
    rw [follow_cons] at h ⊢
    obtain ⟨next, first, rest⟩ := ok_of_bind h
    have same : follow root' here [name] = .ok next := by
      rw [follow_singleton] at first ⊢
      obtain ⟨e, found, isDirectory, leads⟩ := first
      obtain ⟨e', found', isDirectory'⟩ := stands.stays found
      refine ⟨e', found', isDirectory' isDirectory, ?_⟩
      split at leads
      · rwa [if_pos ‹_›]
      · split at leads
        · rwa [if_neg ‹_›, if_pos ‹_›]
        · rw [if_neg ‹_›, if_neg ‹_›]
          exact ⟨leads.1, stands.isSome leads.2.1, leads.2.2⟩
    rw [same]
    exact ih rest

/-- Whatever is there stays, and the program goes on working in the same place. -/
structure Stands (d d' : Disk) : Prop where
  root : d.root.Stands d'.root
  working : d'.working = d.working

namespace Stands

theorem refl (d : Disk) : d.Stands d := ⟨.refl _, rfl⟩

theorem trans {d d' d'' : Disk} (a : d.Stands d') (b : d'.Stands d'') : d.Stands d'' :=
  ⟨a.root.trans b.root, b.working.trans a.working⟩

theorem start {d d' : Disk} (h : d.Stands d') (path : String) : d'.start path = d.start path := by
  rw [Disk.start, Disk.start, h.working]

theorem locate {d d' : Disk} (h : d.Stands d') {path : String} {l : List String}
    (found : d.locate path = .ok l) : d'.locate path = .ok l := by
  obtain ⟨u, checked, followed⟩ := ok_of_bind found
  rw [Disk.locate, checked, h.start]
  exact follow_stands h.root followed

end Stands

/-- All that is there stays as it is, but for what is in directories and what is at some locations. -/
structure KeepsBut (changed : List (List String)) (d d' : Disk) : Prop where
  stands : d.Stands d'
  keeps : ∀ {l f}, d.root.at? l = some f →
    l ∈ changed ∨ ∃ f', d'.root.at? l = some f' ∧ f'.hollow = f.hollow

namespace KeepsBut
variable {changed changed' : List (List String)} {d d' d'' : Disk}

theorem refl (d : Disk) : KeepsBut [] d d := ⟨.refl d, fun found => .inr ⟨_, found, rfl⟩⟩

theorem trans (a : KeepsBut changed d d') (b : KeepsBut changed' d' d'') :
    KeepsBut (changed ++ changed') d d'' := by
  refine ⟨a.stands.trans b.stands, fun {l f} found => ?_⟩
  rcases a.keeps found with here | ⟨f', found', same⟩
  · exact .inl (List.mem_append_left _ here)
  · rcases b.keeps found' with here | ⟨f'', found'', same'⟩
    · exact .inl (List.mem_append_right _ here)
    · exact .inr ⟨f'', found'', same'.trans same⟩

theorem mono (h : KeepsBut changed d d') (more : changed ⊆ changed') : KeepsBut changed' d d' :=
  ⟨h.stands, fun found => (h.keeps found).imp_left fun here => more here⟩

theorem entry? (h : KeepsBut changed d d') {path : String} {l : List String} {f : Entry}
    (located : d.locate path = .ok l) (found : d.root.at? l = some f) (file : f.kind ≠ .directory)
    (apart : l ∉ changed) : d'.locate path = .ok l ∧ d'.root.at? l = some f := by
  obtain ⟨f', found', same⟩ := (h.keeps found).resolve_left apart
  exact ⟨h.stands.locate located, eq_of_hollow file same ▸ found'⟩

end KeepsBut

theorem entry?_eq_some_iff {d : Disk} {path : String} {e : Entry} :
    d.entry? path = some e ↔ ∃ l, d.locate path = .ok l ∧ d.root.at? l = some e := by
  unfold entry?
  cases d.locate path <;> simp

def Holds (d : Disk) (path : String) (K : Kind → Prop) : Prop :=
  ∃ e, d.entry? path = some e ∧ K e.kind

def HasArchive (d : Disk) (path : String) : Prop := d.Holds path (· = .archive)

theorem HasArchive.entry?_eq {d d' : Disk} {path : String} (h : d.HasArchive path)
    (same : (d'.entry? path).bind members? = (d.entry? path).bind members?) :
    d'.entry? path = d.entry? path := by
  obtain ⟨e, found, kind⟩ := h
  cases e with
  | archive members =>
    rw [found] at same ⊢
    obtain ⟨e', found', held⟩ := Option.bind_eq_some_iff.mp (same.trans rfl)
    rw [found', eq_archive_of_members? held]
  | _ => cases kind

/-- An archive lies under a path, whether or not it was finished. -/
def HasBegun (d : Disk) (path : String) : Prop := d.Holds path fun k => k = .archive ∨ k = .torn

theorem HasArchive.hasBegun {d : Disk} {path : String} (h : d.HasArchive path) : d.HasBegun path :=
  h.imp fun _ => .imp_right .inl

theorem Holds.keeps {d d' : Disk} {path : String} {K : Kind → Prop} {changed : List (List String)}
    (h : d.Holds path K) (files : ∀ k, K k → k ≠ .directory) (keeps : d.KeepsBut changed d')
    (become : ∀ l ∈ changed, ∃ e, d'.root.at? l = some e ∧ K e.kind) : d'.Holds path K := by
  obtain ⟨e, found, kind⟩ := h
  obtain ⟨l, located, there⟩ := entry?_eq_some_iff.mp found
  by_cases here : l ∈ changed
  · obtain ⟨e', there', kind'⟩ := become l here
    exact ⟨e', entry?_eq_some_iff.mpr ⟨l, keeps.stands.locate located, there'⟩, kind'⟩
  · exact ⟨e, entry?_eq_some_iff.mpr ⟨l, keeps.entry? located there (files _ kind) here⟩, kind⟩

/-- A path names a file to be, or one that is: its last name is a proper one, in a directory. -/
structure Place (d : Disk) (path : String) (parent : List String) (last : String) : Prop where
  checked : checkPath path = .ok ()
  names : names path = (names path).dropLast ++ [last]
  followed : follow d.root (d.start path) (Disk.names path).dropLast = .ok parent
  above : ∃ e, d.root.at? parent = some e ∧ e.kind = .directory
  proper : isDots last = false ∧ isTooLong last = false
  free : ∀ f, d.root.at? (parent ++ [last]) = some f → f.IsPlain

def lastName (path : String) : String := (names (Text.dropTrailing '/' path)).getLast?.getD ""

theorem target_eq_ok {d : Disk} {path : String} {t : Target} : d.target path = .ok t ↔
    checkPath path = .ok () ∧ ∃ parent e,
      follow d.root (d.start path) (names (Text.dropTrailing '/' path)).dropLast = .ok parent ∧
      d.root.at? parent = some e ∧ e.kind = .directory ∧ isTooLong (lastName path) = false ∧
      ⟨if isDots (lastName path) then parent else parent ++ [lastName path],
        isDots (lastName path), Text.dropTrailing '/' path != path⟩ = t := by
  unfold target
  cases checkPath path with
  | error why => simp [bind, Except.bind]
  | ok u =>
    dsimp only [bind, Except.bind]
    cases follow d.root (d.start path) (names (Text.dropTrailing '/' path)).dropLast with
    | error why => simp
    | ok parent =>
      cases found : d.root.at? parent with
      | none => simp [found, throw, throwThe, MonadExceptOf.throw]
      | some e =>
        have directory := e.isDirectory_iff
        cases isDirectory : e.isDirectory <;> cases long : isTooLong (lastName path) <;>
          simp_all [lastName, isDots, throw, throwThe, MonadExceptOf.throw, pure, Except.pure]

theorem ne_empty_of_proper {last : String} (h : isDots last = false) : last ≠ "" := by
  rintro rfl
  cases h

namespace Place
variable {d : Disk} {path : String} {parent : List String} {last : String}

theorem getLast? (h : d.Place path parent last) : (Disk.names path).getLast? = some last := by
  rw [h.names]
  exact List.getLast?_concat

theorem bare (h : d.Place path parent last) : Text.dropTrailing '/' path = path := by
  apply Text.dropTrailing_of_getLast?
  rw [show Text.splitOn '/' path = Disk.names path from rfl, h.getLast?]
  exact fun same => ne_empty_of_proper h.proper.1 (Option.some.inj same)

theorem lastName_eq (h : d.Place path parent last) : lastName path = last := by
  rw [lastName, h.bare, h.getLast?, Option.getD_some]

theorem fileTarget (h : d.Place path parent last) : d.fileTarget path = .ok (parent ++ [last]) := by
  obtain ⟨e, found, isDirectory⟩ := h.above
  have target : d.target path = .ok ⟨parent ++ [last], false, false⟩ := by
    refine target_eq_ok.mpr ⟨h.checked, parent, e, ?_, found, isDirectory, ?_, ?_⟩
    · rw [h.bare]
      exact h.followed
    · rw [h.lastName_eq]
      exact h.proper.2
    · rw [h.lastName_eq, h.proper.1, h.bare, bne_self_eq_false, if_neg Bool.false_ne_true]
  have free : (d.root.at? (parent ++ [last])).any Entry.isDirectory = false := by
    rw [Option.any_eq_false]
    exact fun f there => (h.free f there).isDirectory
  have accessible : (d.root.at? (parent ++ [last])).any Entry.isClosed = false := by
    rw [Option.any_eq_false]
    exact fun f there => (h.free f there).isClosed
  rw [Disk.fileTarget, target]
  dsimp only
  rw [Bool.or_self, if_neg Bool.false_ne_true, free, if_neg Bool.false_ne_true, accessible,
    if_neg Bool.false_ne_true]

theorem locate (h : d.Place path parent last) (there : (d.root.at? (parent ++ [last])).isSome) :
    d.locate path = .ok (parent ++ [last]) := by
  obtain ⟨e, found, isDirectory⟩ := h.above
  have dots : ¬ (last = "" ∨ last = ".") ∧ last ≠ ".." := by
    have := h.proper.1
    grind [isDots]
  have arrives : follow d.root parent [last] = .ok (parent ++ [last]) := by
    refine follow_singleton.mpr ⟨e, found, isDirectory, ?_⟩
    rw [if_neg dots.1, if_neg dots.2]
    exact ⟨h.proper.2, there, rfl⟩
  rw [Disk.locate, h.checked, h.names]
  change follow d.root (d.start path) (_ ++ [last]) = _
  rw [follow_append, h.followed]
  exact arrives

theorem stands (h : d.Place path parent last) {d' : Disk} (stands : d.Stands d')
    (free : ∀ f, d'.root.at? (parent ++ [last]) = some f → f.IsPlain) :
    d'.Place path parent last where
  checked := h.checked
  names := h.names
  followed := by
    rw [stands.start]
    exact follow_stands stands.root h.followed
  above := by
    obtain ⟨e, found, isDirectory⟩ := h.above
    obtain ⟨e', found', isDirectory'⟩ := stands.root.stays found
    exact ⟨e', found', isDirectory' isDirectory⟩
  proper := h.proper
  free := free

end Place

theorem names_eq_concat (path : String) :
    names path = (names path).dropLast ++ [(names path).getLast?.getD ""] := by
  have some : names path ≠ [] := by
    rw [names, Text.splitOn, Ne, List.map_eq_nil_iff]
    exact Text.splitChars_ne_nil '/' path.toList
  rw [List.getLast?_eq_some_getLast some, Option.getD_some, List.dropLast_concat_getLast]

theorem place_of_fileTarget {d : Disk} {path : String} {l : List String}
    (h : d.fileTarget path = .ok l) : ∃ parent last, d.Place path parent last ∧ l = parent ++ [last] := by
  unfold Disk.fileTarget at h
  split at h
  · cases h
  · next t target =>
    split at h
    · cases h
    · next proper =>
      split at h
      · cases h
      next free =>
      split at h
      · cases h
      · next accessible =>
        obtain ⟨checked, parent, e, followed, found, isDirectory, short, rfl⟩ :=
          target_eq_ok.mp target
        rw [Bool.not_eq_true, Bool.or_eq_false_iff] at proper
        obtain ⟨dots, slash⟩ := proper
        dsimp only at dots slash
        have bare : Text.dropTrailing '/' path = path := by simpa using slash
        rw [bare] at followed
        rw [lastName, bare] at dots short
        dsimp only at free accessible h
        rw [lastName, bare, dots, if_neg Bool.false_ne_true] at free accessible h
        refine ⟨parent, _, ⟨checked, names_eq_concat path, followed, ⟨e, found, isDirectory⟩,
          ⟨dots, short⟩, fun f there => ⟨fun kind => free ?_, fun kind => accessible ?_⟩⟩,
          (Except.ok.inj h).symm⟩
        · rw [there]
          exact f.isDirectory_iff.mpr kind
        · rw [there]
          exact f.isClosed_iff.mpr kind

theorem place_of_entry? {d : Disk} {path : String} {e : Entry} (h : d.entry? path = some e)
    (plain : e.IsPlain) : ∃ parent last, d.Place path parent last := by
  obtain ⟨l, located, there⟩ := entry?_eq_some_iff.mp h
  obtain ⟨u, checked, followed⟩ := ok_of_bind located
  obtain ⟨last, split⟩ : ∃ last, names path = (names path).dropLast ++ [last] :=
    ⟨_, names_eq_concat path⟩
  rw [split, follow_append] at followed
  obtain ⟨parent, above, arrives⟩ := ok_of_bind followed
  obtain ⟨d', found, isDirectory, leads⟩ := follow_singleton.mp arrives
  have file (l' : List String) (f : Entry) (same : l = l') (found' : d.root.at? l' = some f) :
      f.IsPlain := by
    rw [← same, there] at found'
    exact Option.some.inj found' ▸ plain
  by_cases here : last = "" ∨ last = "."
  · rw [if_pos here] at leads
    exact absurd isDirectory (file parent d' leads found).file
  · rw [if_neg here] at leads
    by_cases up : last = ".."
    · rw [if_pos up] at leads
      -- Above a directory there is a directory; above the top there is the top.
      rcases List.eq_nil_or_concat parent with rfl | ⟨init, name, rfl⟩
      · exact absurd isDirectory (file [] d' leads found).file
      · rw [List.concat_eq_append] at leads found
        obtain ⟨f, found', kind⟩ := kind_of_at?_append found
        rw [List.dropLast_concat] at leads
        exact absurd kind (file init f leads found').file
    · rw [if_neg up] at leads
      obtain ⟨short, -, rfl⟩ := leads
      refine ⟨parent, last, checked, split, above, ⟨d', found, isDirectory⟩, ⟨?_, short⟩,
        fun f found' => file _ f rfl found'⟩
      grind [isDots]

theorem put_keepsBut {d : Disk} {parent : List String} {name : String} {e c : Entry}
    (found : d.root.at? parent = some e) (isDirectory : e.kind = .directory)
    (free : ∀ f, d.root.at? (parent ++ [name]) = some f → f.kind ≠ .directory) :
    d.KeepsBut [parent ++ [name]] (d.put (parent ++ [name]) c) where
  stands := ⟨.put found isDirectory free, rfl⟩
  keeps there := (at?_put_cases found isDirectory free there).imp_left List.mem_singleton.mpr

namespace Place
variable {d : Disk} {path : String} {parent : List String} {last : String}
  (h : d.Place path parent last) {c : Entry}
include h

theorem put_keepsBut : d.KeepsBut [parent ++ [last]] (d.put (parent ++ [last]) c) := by
  obtain ⟨e, found, isDirectory⟩ := h.above
  exact Disk.put_keepsBut found isDirectory fun f there => (h.free f there).file

theorem put_stands : d.Stands (d.put (parent ++ [last]) c) := h.put_keepsBut.stands

theorem write (plain : c.IsPlain) :
    d.write path c = .ok (d.put (parent ++ [last]) c) ∧
      (d.put (parent ++ [last]) c).Place path parent last ∧
      entry? (d.put (parent ++ [last]) c) path = some c := by
  obtain ⟨e, found, isDirectory⟩ := h.above
  have there : (d.put (parent ++ [last]) c).root.at? (parent ++ [last]) = some c := at?_put found
  have place : (d.put (parent ++ [last]) c).Place path parent last := by
    refine h.stands h.put_stands fun f found' => ?_
    rw [there] at found'
    exact Option.some.inj found' ▸ plain
  refine ⟨?_, place, ?_⟩
  · rw [Disk.write, h.fileTarget]
    rfl
  · exact entry?_eq_some_iff.mpr ⟨_, place.locate (by rw [there]; rfl), there⟩

end Place

theorem makeDirectory_keeps {d d' : Disk} {path : String} (h : d.makeDirectory path = .ok d') :
    d.KeepsBut [] d' := by
  unfold makeDirectory at h
  split at h
  · cases h
  · next t target =>
    split at h
    · cases h
    · next new =>
      obtain ⟨-, parent, e, -, found, isDirectory, -, rfl⟩ := target_eq_ok.mp target
      rw [Bool.not_eq_true, Bool.or_eq_false_iff] at new
      obtain ⟨dots, absent⟩ := new
      obtain rfl := Except.ok.inj h
      dsimp only at dots absent ⊢
      rw [dots, if_neg Bool.false_ne_true] at absent ⊢
      rw [← Bool.not_eq_true, Option.not_isSome_iff_eq_none] at absent
      have put := put_keepsBut (c := .empty) found isDirectory fun f there => by
        cases absent.symm.trans there
      refine ⟨put.stands, fun {l f} there => .inr ((put.keeps there).resolve_left fun here => ?_)⟩
      rw [List.mem_singleton.mp here, absent] at there
      cases there

section
-- What these come to for a given path is no matter here, and takes long to find out that it is open.
attribute [local irreducible] splitAbove isPresent

theorem makeDirectoriesFrom_succ (fuel : Nat) (d : Disk) (path : String) :
    makeDirectoriesFrom (fuel + 1) d path =
      let (head,tail) := splitAbove path
      let needsHead := head != "" && tail != "" && !d.isPresent head
      let (above,d) := if needsHead then makeDirectoriesFrom fuel d head else (.ok (), d)
      match above with
      | .error why =>
        if isPresentFault why then makeLast needsHead tail d path else (.error why, d)
      | .ok () => makeLast needsHead tail d path := rfl

end

section
variable {P : Disk → Prop} (step : ∀ {d d' : Disk} {path}, d.makeDirectory path = .ok d' → P d → P d')
include step

theorem makeLast_of_step (hasMadeHead : Bool) (tail : String) {d : Disk} (path : String) (start : P d) :
    P (makeLast hasMadeHead tail d path).2 := by
  unfold makeLast
  split
  · exact start
  · split
    · next made => exact step made start
    · split <;> exact start

theorem makeDirectoriesFrom_of_step (fuel : Nat) {d : Disk} (path : String) (start : P d) :
    P (makeDirectoriesFrom fuel d path).2 := by
  induction fuel generalizing d path with
  | zero => exact start
  | succ fuel ih =>
    rw [makeDirectoriesFrom_succ]
    rcases splitAbove path with ⟨head, tail⟩
    dsimp only
    obtain ⟨above, d', taken, kept⟩ : ∃ above d',
        (if (head != "" && tail != "" && !d.isPresent head) = true
          then makeDirectoriesFrom fuel d head else (.ok (), d)) = (above, d') ∧ P d' := by
      split
      · exact ⟨_, _, rfl, ih head start⟩
      · exact ⟨_, _, rfl, start⟩
    rw [taken]
    cases above with
    | ok u => exact makeLast_of_step step _ tail path kept
    | error why =>
      dsimp only
      split
      · exact makeLast_of_step step _ tail path kept
      · exact kept

/-- However far it gets, making directories comes to making one after the other. -/
theorem makeDirectories_of_step {d : Disk} (path : String) (start : P d) :
    P (d.makeDirectories path).2 :=
  makeDirectoriesFrom_of_step step (path.length + 1) path start

end

theorem makeDirectories_keeps (d : Disk) (path : String) :
    d.KeepsBut [] (d.makeDirectories path).2 :=
  makeDirectories_of_step (fun made kept => kept.trans (makeDirectory_keeps made)) path (.refl d)

end Files.Disk
end Flotilla
