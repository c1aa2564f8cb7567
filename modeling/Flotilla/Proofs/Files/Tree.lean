import Flotilla.Files.Tree

/-! What a tree has at its locations after something is put into it: the new entry at its own location,
and everywhere else what was there before, directories aside from what is in them. After something is
removed, there is nothing at its location or below it, and the rest is as it was. -/
namespace Flotilla.Files.Entry

inductive Kind
  | file
  | closed
  | archive
  | torn
  | directory
  deriving DecidableEq

def kind : Entry → Kind
  | file _ => .file
  | closed => .closed
  | archive _ => .archive
  | torn _ => .torn
  | directory _ => .directory

theorem isDirectory_iff (e : Entry) : e.isDirectory ↔ e.kind = .directory := by
  cases e <;> simp [isDirectory, kind]

theorem isClosed_iff (e : Entry) : e.isClosed ↔ e.kind = .closed := by
  cases e <;> simp [isClosed, kind]

structure IsPlain (e : Entry) : Prop where
  file : e.kind ≠ .directory
  accessible : e.kind ≠ .closed

theorem IsPlain.isDirectory {e : Entry} (h : e.IsPlain) : e.isDirectory = false :=
  Bool.eq_false_iff.mpr (mt e.isDirectory_iff.mp h.file)

theorem IsPlain.isClosed {e : Entry} (h : e.IsPlain) : e.isClosed = false :=
  Bool.eq_false_iff.mpr (mt e.isClosed_iff.mp h.accessible)

theorem isPlain_torn (members : List Member) : (torn members).IsPlain := ⟨nofun, nofun⟩

theorem isPlain_file (text : String) : (file text).IsPlain := ⟨nofun, nofun⟩

def members? : Entry → Option (List Member)
  | archive members => some members
  | _ => none

theorem eq_archive_of_members? {e : Entry} {members : List Member} (h : e.members? = some members) :
    e = archive members := by
  cases e with
  | archive m => rw [Option.some.inj h]
  | _ => cases h

/-- An entry aside from what is in it. -/
def hollow : Entry → Entry
  | directory _ => directory []
  | e => e

@[simp] theorem kind_hollow (e : Entry) : e.hollow.kind = e.kind := by
  cases e <;> rfl

theorem hollow_of_kind {e : Entry} (h : e.kind = .directory) : e.hollow = directory [] := by
  cases e with
  | directory es => rfl
  | _ => cases h

theorem eq_of_hollow {e f : Entry} (h : e.kind ≠ .directory) (same : f.hollow = e.hollow) : f = e := by
  cases e with
  | directory es => exact absurd rfl h
  | _ => cases f <;> first | exact same | cases same

theorem at?_cons (e : Entry) (name : String) (r : List String) :
    e.at? (name :: r) = (e.child? name).bind (·.at? r) := by
  rw [at?]
  cases e.child? name <;> rfl

theorem at?_append (e : Entry) (a b : List String) : e.at? (a ++ b) = (e.at? a).bind (·.at? b) := by
  induction a generalizing e with
  | nil => rfl
  | cons name r ih =>
    rw [List.cons_append, at?_cons, at?_cons]
    cases e.child? name with
    | none => rfl
    | some c => exact ih c

theorem at?_concat (e : Entry) (a : List String) (name : String) :
    e.at? (a ++ [name]) = (e.at? a).bind (·.child? name) := by
  have one (e : Entry) : e.at? [name] = e.child? name := by
    rw [at?_cons]
    cases e.child? name <;> rfl
  rw [at?_append]
  exact congrArg _ (funext one)

theorem kind_of_child? {e c : Entry} {name : String} (h : e.child? name = some c) :
    e.kind = .directory := by
  cases e with
  | directory es => rfl
  | _ => cases h

theorem kind_of_at?_append {e c : Entry} {a : List String} {name : String} {r : List String}
    (h : e.at? (a ++ name :: r) = some c) : ∃ d, e.at? a = some d ∧ d.kind = .directory := by
  rw [at?_append] at h
  obtain ⟨d, found, there⟩ := Option.bind_eq_some_iff.mp h
  rw [at?_cons] at there
  obtain ⟨_, child, -⟩ := Option.bind_eq_some_iff.mp there
  exact ⟨d, found, kind_of_child? child⟩

theorem lookup_putChild (name : String) (c : Entry) (es : List (String × Entry)) (n : String) :
    (putChild name c es).lookup n = if n = name then some c else es.lookup n := by
  induction es with
  | nil => grind [putChild]
  | cons e r ih => grind [putChild]

theorem child?_directory (name : String) (c : Entry) (es : List (String × Entry)) (n : String) :
    (directory (putChild name c es)).child? n =
      if n = name then some c else (directory es).child? n := lookup_putChild name c es n

theorem put_cons {name : String} {r : List String} (h : r ≠ []) (e c : Entry) :
    e.put (name :: r) c = match e.child? name with
      | some inner => directory (putChild name (inner.put r c) e.entries)
      | none => e := by
  cases r with
  | nil => exact absurd rfl h
  | cons n r => rfl

theorem directory_entries {e : Entry} (h : e.kind = .directory) : directory e.entries = e := by
  cases e with
  | directory es => rfl
  | _ => cases h

theorem at?_put_of_apart {e c : Entry} {location l : List String} (apart : ¬ location <+: l)
    (apart' : ¬ l <+: location) : (e.put location c).at? l = e.at? l := by
  induction location generalizing e l with
  | nil => exact absurd List.nil_prefix apart
  | cons name r ih =>
    cases l with
    | nil => exact absurd List.nil_prefix apart'
    | cons m r' =>
      cases last : r with
      | nil =>
        have other : m ≠ name := by
          rintro rfl
          exact apart (by simp [last])
        rw [put, at?_cons, at?_cons, child?_directory, if_neg other]
        rfl
      | cons n r'' =>
        rw [← last, put_cons (by simp [last])]
        cases child : e.child? name with
        | none => rfl
        | some inner =>
          dsimp only
          rw [at?_cons, at?_cons, child?_directory]
          by_cases same : m = name
          · subst same
            rw [List.cons_prefix_cons, not_and] at apart apart'
            rw [if_pos rfl, child]
            exact ih (apart rfl) (apart' rfl)
          · rw [if_neg same]
            rfl

section
variable {name : String} {c : Entry}

theorem at?_put {e : Entry} {parent : List String} {d : Entry} (found : e.at? parent = some d) :
    (e.put (parent ++ [name]) c).at? (parent ++ [name]) = some c := by
  induction parent generalizing e with
  | nil =>
    rw [List.nil_append, put, at?_cons, child?_directory, if_pos rfl]
    rfl
  | cons n r ih =>
    rw [at?_cons] at found
    obtain ⟨inner, child, found⟩ := Option.bind_eq_some_iff.mp found
    rw [List.cons_append, put_cons (by simp), child]
    dsimp only
    rw [at?_cons, child?_directory, if_pos rfl]
    exact ih found

/-- Elsewhere all stays, but for what is in directories. -/
theorem hollow_at?_put {e : Entry} {parent : List String} {d : Entry}
    (found : e.at? parent = some d) (isDirectory : d.kind = .directory) {l : List String}
    (apart : ¬ parent ++ [name] <+: l) :
    ((e.put (parent ++ [name]) c).at? l).map hollow = (e.at? l).map hollow := by
  induction parent generalizing e l with
  | nil =>
    obtain rfl : e = d := Option.some.inj found
    rw [List.nil_append, put]
    cases l with
    | nil => exact congrArg some (hollow_of_kind isDirectory).symm
    | cons n r =>
      rw [at?_cons, at?_cons, child?_directory, if_neg, directory_entries isDirectory]
      rintro rfl
      exact apart (by simp)
  | cons n r ih =>
    rw [at?_cons] at found
    obtain ⟨inner, child, deeper⟩ := Option.bind_eq_some_iff.mp found
    have isDirectory' := kind_of_child? child
    rw [List.cons_append, put_cons (by simp), child]
    dsimp only
    cases l with
    | nil => exact congrArg some (hollow_of_kind isDirectory').symm
    | cons m r' =>
      rw [at?_cons, at?_cons, child?_directory]
      by_cases same : m = n
      · subst same
        rw [if_pos rfl, child]
        exact ih deeper fun prefixed => apart (by simpa using prefixed)
      · rw [if_neg same, directory_entries isDirectory']

theorem at?_put_cases {e : Entry} {parent : List String} {d : Entry} (found : e.at? parent = some d)
    (isDirectory : d.kind = .directory)
    (free : ∀ f, e.at? (parent ++ [name]) = some f → f.kind ≠ .directory) {l : List String} {f : Entry}
    (there : e.at? l = some f) :
    l = parent ++ [name] ∨
      ∃ f', (e.put (parent ++ [name]) c).at? l = some f' ∧ f'.hollow = f.hollow := by
  by_cases below : parent ++ [name] <+: l
  · obtain ⟨rest, rfl⟩ := below
    cases rest with
    | nil => exact .inl (List.append_nil _)
    | cons n r =>
      obtain ⟨f', above, kind⟩ := kind_of_at?_append there
      exact absurd kind (free f' above)
  · have same := hollow_at?_put (c := c) found isDirectory below
    rw [there] at same
    exact .inr (Option.map_eq_some_iff.mp same)

end

theorem lookup_filter (name : String) (es : List (String × Entry)) (n : String) :
    (es.filter (·.1 != name)).lookup n = if n = name then none else es.lookup n := by
  induction es with
  | nil => simp
  | cons e r ih => grind

theorem child?_filter (name : String) (e : Entry) (n : String) :
    (directory (e.entries.filter (·.1 != name))).child? n =
      if n = name then none else e.child? n := lookup_filter name e.entries n

theorem remove_cons {name : String} {r : List String} (h : r ≠ []) (e : Entry) :
    e.remove (name :: r) = match e.child? name with
      | some inner => directory (putChild name (inner.remove r) e.entries)
      | none => e := by
  cases r with
  | nil => exact absurd rfl h
  | cons n r => rfl

theorem at?_remove {e : Entry} {location : List String} (proper : location ≠ []) {l : List String}
    (below : location <+: l) : (e.remove location).at? l = none := by
  obtain ⟨rest, rfl⟩ := below
  induction location generalizing e with
  | nil => exact absurd rfl proper
  | cons name r ih =>
    cases last : r with
    | nil => rw [List.cons_append, remove, at?_cons, child?_filter, if_pos rfl, Option.bind_none]
    | cons n r' =>
      rw [← last, remove_cons (by simp [last]), List.cons_append, at?_cons]
      cases child : e.child? name with
      | none => simp [child]
      | some inner =>
        dsimp only
        rw [child?_directory, if_pos rfl]
        exact ih (by simp [last])

theorem hollow_at?_remove {e c : Entry} {location : List String} (found : e.at? location = some c)
    {l : List String} (apart : ¬ location <+: l) :
    ((e.remove location).at? l).map hollow = (e.at? l).map hollow := by
  induction location generalizing e l with
  | nil => exact absurd List.nil_prefix apart
  | cons name r ih =>
    rw [at?_cons] at found
    obtain ⟨inner, child, deeper⟩ := Option.bind_eq_some_iff.mp found
    have isDirectory := kind_of_child? child
    cases last : r with
    | nil =>
      rw [remove]
      cases l with
      | nil => exact congrArg some (hollow_of_kind isDirectory).symm
      | cons m r' =>
        rw [at?_cons, at?_cons, child?_filter, if_neg]
        rintro rfl
        exact apart (by simp [last])
    | cons n r'' =>
      rw [← last, remove_cons (by simp [last]), child]
      dsimp only
      cases l with
      | nil => exact congrArg some (hollow_of_kind isDirectory).symm
      | cons m r' =>
        rw [at?_cons, at?_cons, child?_directory]
        by_cases same : m = name
        · subst same
          rw [if_pos rfl, child]
          exact ih deeper fun prefixed => apart (by simpa using prefixed)
        · rw [if_neg same, directory_entries isDirectory]

/-- Whatever is there stays, and directories stay directories. -/
structure Stands (e e' : Entry) : Prop where
  stays : ∀ {l f}, e.at? l = some f →
    ∃ f', e'.at? l = some f' ∧ (f.kind = .directory → f'.kind = .directory)

namespace Stands

theorem refl (e : Entry) : e.Stands e := ⟨fun {_ f} found => ⟨f, found, id⟩⟩

theorem trans {e e' e'' : Entry} (a : e.Stands e') (b : e'.Stands e'') : e.Stands e'' := by
  refine ⟨fun {l f} found => ?_⟩
  obtain ⟨f', found', kind⟩ := a.stays found
  obtain ⟨f'', found'', kind'⟩ := b.stays found'
  exact ⟨f'', found'', fun isDirectory => kind' (kind isDirectory)⟩

theorem isSome {e e' : Entry} (h : e.Stands e') {l : List String} (there : (e.at? l).isSome) :
    (e'.at? l).isSome := by
  obtain ⟨f, found⟩ := Option.isSome_iff_exists.mp there
  obtain ⟨f', found', -⟩ := h.stays found
  rw [found']
  rfl

theorem put {e c : Entry} {parent : List String} {name : String} {d : Entry}
    (found : e.at? parent = some d) (isDirectory : d.kind = .directory)
    (free : ∀ f, e.at? (parent ++ [name]) = some f → f.kind ≠ .directory) :
    e.Stands (e.put (parent ++ [name]) c) := by
  refine ⟨fun {l f} there => ?_⟩
  rcases at?_put_cases found isDirectory free there with rfl | ⟨f', found', same⟩
  · exact ⟨c, at?_put found, fun kind => absurd kind (free f there)⟩
  · refine ⟨f', found', fun kind => ?_⟩
    rw [← kind_hollow, same, kind_hollow, kind]

theorem of_remove {e c : Entry} {location : List String} (found : e.at? location = some c)
    (proper : location ≠ []) : (e.remove location).Stands e := by
  refine ⟨fun {l f} there => ?_⟩
  have apart : ¬ location <+: l := fun below => by
    rw [at?_remove proper below] at there
    cases there
  have same := hollow_at?_remove found apart
  rw [there] at same
  obtain ⟨f', found', same⟩ := Option.map_eq_some_iff.mp same.symm
  refine ⟨f', found', fun kind => ?_⟩
  rw [← kind_hollow, same, kind_hollow, kind]

end Stands

end Flotilla.Files.Entry
