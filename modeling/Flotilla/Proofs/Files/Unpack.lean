import Mathlib.Data.List.Induction
import Flotilla.Proofs.Files.Folder
import Flotilla.Proofs.Files.Walk

/-! Archives unpacked. Their members are put one after the other where their names say; members for some
of the entries of a directory, each with all below it, so give those entries back and nothing else. -/
namespace Flotilla
namespace Text

theorem splitOn_joinWith {ls : List String} (some : ls ≠ []) (inner : ∀ n ∈ ls, '/' ∉ n.toList) :
    splitOn '/' (joinWith "/" ls) = ls := by
  induction ls with
  | nil => exact absurd rfl some
  | cons n r ih =>
    have single : splitOn '/' n = [n] := by
      rw [splitOn, splitChars_of_notMem (inner n List.mem_cons_self)]
      simp
    cases r with
    | nil => exact single
    | cons m r =>
      have rest := ih (by simp) fun k member => inner k (List.mem_cons_of_mem n member)
      have joined : joinWith "/" (n :: m :: r) = n ++ "/" ++ joinWith "/" (m :: r) := rfl
      rw [joined, ← Files.Disk.names, Files.Disk.names_slash, Files.Disk.names, Files.Disk.names, single,
        rest]
      rfl

end Text

namespace Files

/-- The entry that a member is unpacked to. An archive that is a member itself is kept without what is
in it. -/
def Member.entry (m : Member) : Entry :=
  if m.isDirectory then .empty
  else match m.text with
    | some text => .file text
    | none => .archive []

namespace Entry

/-- Unpacks a member. A directory that is there already is left as it is. -/
def unpackMember (e : Entry) (m : Member) : Entry :=
  let location := Text.splitOn '/' m.name
  if m.isDirectory && (e.at? location).any isDirectory then e else e.put location m.entry

def unpack (ms : List Member) : Entry := ms.foldl unpackMember empty

def outline : Entry → Entry
  | file text => file text
  | directory _ => empty
  | _ => archive []

/-- Members for the entry of a name and all below it, each once and in the order of the locations. -/
def Lists (e : Entry) (n : String) (ms : List Member) : Prop :=
  ∃ ls : List (List String), ls.Pairwise (· < ·) ∧ (∀ l, l ∈ ls ↔ (e.at? (n :: l)).isSome) ∧
    ms = ls.map fun l => e.memberAt [] (n :: l)

inductive ListsAll (e : Entry) : List String → List Member → Prop
  | nil : ListsAll e [] []
  | cons {n : String} {ms : List Member} {ns : List String} {rest : List Member} :
      e.Lists n ms → ListsAll e ns rest → ListsAll e (n :: ns) (ms ++ rest)

theorem ListsAll.append {e : Entry} {ns ns' : List String} {ms ms' : List Member}
    (h : e.ListsAll ns ms) (h' : e.ListsAll ns' ms') : e.ListsAll (ns ++ ns') (ms ++ ms') := by
  induction h with
  | nil => exact h'
  | cons lists _ ih =>
    rw [List.append_assoc]
    exact .cons lists ih

theorem not_prefix_of_lt {a b : List String} (h : a < b) : ¬ b <+: a := by
  induction b generalizing a with
  | nil => cases h
  | cons x b ih =>
    rintro ⟨r, rfl⟩
    rcases List.cons_lt_cons_iff.mp h with before | ⟨-, later⟩
    · exact String.lt_irrefl x before
    · exact ih later (List.prefix_append b r)

/-- The locations behind such members: those that begin with one of the names, none of them above an
earlier one. -/
theorem ListsAll.locations {e : Entry} {ns : List String} {ms : List Member} (h : e.ListsAll ns ms)
    (distinct : ns.Nodup) : ∃ ls : List (List String), ms = ls.map (e.memberAt []) ∧
      (∀ l, l ∈ ls ↔ ∃ n r, l = n :: r ∧ n ∈ ns ∧ (e.at? l).isSome) ∧
      ls.Pairwise fun a b => ¬ b <+: a := by
  induction h with
  | nil => exact ⟨[], rfl, by simp, .nil⟩
  | @cons n ms ns rest lists _ ih =>
    obtain ⟨new, distinct'⟩ := List.nodup_cons.mp distinct
    obtain ⟨ls', rfl, covers', orderly'⟩ := ih distinct'
    obtain ⟨ls, sorted, covers, rfl⟩ := lists
    refine ⟨ls.map (n :: ·) ++ ls', ?_, fun l => ?_, ?_⟩
    · rw [List.map_append, List.map_map]
      rfl
    · rw [List.mem_append, List.mem_map, covers']
      constructor
      · rintro (⟨r, member, rfl⟩ | ⟨m, r, rfl, later, there⟩)
        · exact ⟨n, r, rfl, List.mem_cons_self, (covers r).mp member⟩
        · exact ⟨m, r, rfl, List.mem_cons_of_mem n later, there⟩
      · rintro ⟨m, r, rfl, member, there⟩
        rcases List.mem_cons.mp member with rfl | later
        · exact .inl ⟨r, (covers r).mpr there, rfl⟩
        · exact .inr ⟨m, r, rfl, later, there⟩
    · refine List.pairwise_append.mpr ⟨?_, orderly', fun a first b second above => ?_⟩
      · refine List.pairwise_map.mpr (sorted.imp fun before above => ?_)
        exact not_prefix_of_lt before (List.cons_prefix_cons.mp above).2
      · obtain ⟨r, -, rfl⟩ := List.mem_map.mp first
        obtain ⟨m, r', rfl, later, -⟩ := (covers' b).mp second
        exact new ((List.cons_prefix_cons.mp above).1 ▸ later)

theorem name_member (c : Entry) (name : String) : (c.member name).name = name := by
  cases c <;> rfl

theorem entry_member (c : Entry) (name : String) : (c.member name).entry = c.outline := by
  cases c <;> rfl

@[simp] theorem kind_outline_eq_directory (c : Entry) :
    c.outline.kind = .directory ↔ c.kind = .directory := by
  cases c <;> simp [outline, kind, empty]

theorem outline_hollow (c : Entry) : c.hollow.outline = c.outline := by
  cases c <;> rfl

theorem outline_outline (c : Entry) : c.outline.outline = c.outline := by
  cases c <;> rfl

theorem child?_outline (c : Entry) (name : String) : c.outline.child? name = none := by
  cases c <;> rfl

theorem map_outline_of_hollow {a b : Option Entry} (h : a.map hollow = b.map hollow) :
    a.map outline = b.map outline := by
  have through (x : Option Entry) : x.map outline = (x.map hollow).map outline := by
    cases x with
    | none => rfl
    | some c => exact congrArg some (outline_hollow c).symm
  rw [through a, h, ← through b]

theorem isName_of_at? {e : Entry} (sound : e.IsSound) {l : List String} (there : (e.at? l).isSome) :
    ∀ n ∈ l, Disk.isName n := by
  induction l generalizing e with
  | nil => simp
  | cons name r ih =>
    obtain ⟨f, found⟩ := Option.isSome_iff_exists.mp there
    rw [at?_cons] at found
    obtain ⟨c, child, below⟩ := Option.bind_eq_some_iff.mp found
    have listed := sound.child?_eq_some_iff.mp child
    refine List.forall_mem_cons.mpr ⟨sound.isName listed, ih (sound.of_mem listed) ?_⟩
    rw [below]
    rfl

section
variable {e : Entry} (sound : e.IsSound)
include sound

theorem unpackMember_at? {acc : Entry} {parent : List String} {name : String} {c : Entry}
    (found : e.at? (parent ++ [name]) = some c) {d : Entry} (above : acc.at? parent = some d)
    (isDirectory : d.kind = .directory) (free : acc.at? (parent ++ [name]) = none) (l : List String) :
    ((acc.unpackMember (e.memberAt [] (parent ++ [name]))).at? l).map outline =
      if parent ++ [name] = l then some c.outline else (acc.at? l).map outline := by
  have names : ∀ n ∈ parent ++ [name], '/' ∉ n.toList := fun n member =>
    (Disk.isName_iff.mp (isName_of_at? sound (by rw [found]; rfl) n member)).2.2.2
  have put : acc.unpackMember (e.memberAt [] (parent ++ [name])) =
      acc.put (parent ++ [name]) c.outline := by
    rw [unpackMember, memberAt, found, Option.getD_some, List.nil_append, name_member,
      Text.splitOn_joinWith (by simp) names, free, Option.any_none, Bool.and_false,
      if_neg Bool.false_ne_true, entry_member]
  rw [put]
  split
  · next same =>
    rw [← same, at?_put above]
    exact congrArg some (outline_outline c)
  · next other =>
    by_cases below : parent ++ [name] <+: l
    · obtain ⟨_ | ⟨n, r⟩, rfl⟩ := below
      · exact absurd (List.append_nil _).symm other
      · rw [at?_append _ (parent ++ [name]), at?_append _ (parent ++ [name]), at?_put above, free,
          Option.bind_some, at?_cons, child?_outline]
        rfl
    · exact map_outline_of_hollow (hollow_at?_put above isDirectory below)

/-- Members that come in an order in which each directory is there before what lies in it. -/
theorem unpack_at? {ls : List (List String)} (written : ∀ l ∈ ls, l ≠ [] ∧ (e.at? l).isSome)
    (above : ∀ l n, l ++ [n] ∈ ls → l ≠ [] → l ∈ ls) (orderly : ls.Pairwise fun a b => ¬ b <+: a)
    (l : List String) : ((unpack (ls.map (e.memberAt []))).at? l).map outline =
      if l = [] then some empty else if l ∈ ls then (e.at? l).map outline else none := by
  -- The last member is put where its directory has been put before and nothing lies yet.
  induction ls using List.reverseRecOn generalizing l with
  | nil => cases l <;> rfl
  | append_singleton ls m ih =>
    obtain ⟨orderly', -, apart⟩ := List.pairwise_append.mp orderly
    have new : ∀ a ∈ ls, ¬ m <+: a := fun a member => apart a member m (List.mem_singleton_self m)
    obtain ⟨some, there⟩ := written m (by simp)
    obtain ⟨parent, name, rfl⟩ := (List.eq_nil_or_concat m).resolve_left some
    rw [List.concat_eq_append] at *
    have held : parent ≠ [] → parent ∈ ls := fun inner => by
      have := above parent name (by simp) inner
      simpa using this
    have rest := ih (fun l member => written l (List.mem_append_left _ member))
      (fun l n member inner => by
        rcases List.mem_append.mp (above l n (List.mem_append_left _ member) inner) with old | last
        · exact old
        · obtain rfl := List.mem_singleton.mp last
          exact absurd (List.prefix_append _ _) (new _ member))
      orderly'
    obtain ⟨c, found⟩ := Option.isSome_iff_exists.mp there
    obtain ⟨d, found', isDirectory⟩ := kind_of_at?_append found
    have free : (unpack (ls.map (e.memberAt []))).at? (parent ++ [name]) = none := by
      have := rest (parent ++ [name])
      rw [if_neg some, if_neg fun member => new _ member List.prefix_rfl] at this
      exact Option.map_eq_none_iff.mp this
    obtain ⟨x, kept, kind⟩ : ∃ x, ((unpack (ls.map (e.memberAt []))).at? parent).map outline = .some x ∧
        x.kind = .directory := by
      rw [rest parent]
      split
      · exact ⟨empty, rfl, rfl⟩
      · next inner =>
        rw [if_pos (held inner), found']
        exact ⟨d.outline, rfl, by simpa using isDirectory⟩
    obtain ⟨d', above', rfl⟩ := Option.map_eq_some_iff.mp kept
    rw [List.map_append, unpack, List.foldl_append]
    refine (unpackMember_at? sound found above' (by simpa using kind) free l).trans ?_
    rw [rest l]
    by_cases last : parent ++ [name] = l
    · subst last
      rw [if_pos rfl, if_neg some, if_pos (by simp), found]
      rfl
    · simp [last, Ne.symm last]

theorem ListsAll.unpack {ns : List String} {ms : List Member} (h : e.ListsAll ns ms)
    (distinct : ns.Nodup) (n : String) (r : List String) :
    ((Entry.unpack ms).at? (n :: r)).map outline =
      if n ∈ ns then (e.at? (n :: r)).map outline else none := by
  obtain ⟨ls, rfl, covers, orderly⟩ := h.locations distinct
  have written : ∀ l ∈ ls, l ≠ [] ∧ (e.at? l).isSome := fun l member => by
    obtain ⟨m, r', rfl, -, there⟩ := (covers l).mp member
    exact ⟨List.cons_ne_nil m r', there⟩
  have above : ∀ l m, l ++ [m] ∈ ls → l ≠ [] → l ∈ ls := by
    intro l m member inner
    obtain ⟨top, r', same, named, there⟩ := (covers _).mp member
    obtain ⟨first, l', rfl⟩ := List.exists_cons_of_ne_nil inner
    obtain ⟨rfl, -⟩ := List.cons.inj same
    refine (covers _).mpr ⟨first, l', rfl, named, ?_⟩
    obtain ⟨c, found⟩ := Option.isSome_iff_exists.mp there
    obtain ⟨d, found', -⟩ := kind_of_at?_append found
    rw [found']
    rfl
  rw [unpack_at? sound written above orderly, if_neg (List.cons_ne_nil n r)]
  by_cases named : n ∈ ns
  · rw [if_pos named]
    cases there : e.at? (n :: r) with
    | none => exact ite_self _
    | some c => rw [if_pos ((covers _).mpr ⟨n, r, rfl, named, by rw [there]; rfl⟩)]
  · rw [if_neg named, if_neg fun member => ?_]
    obtain ⟨m, r', same, named', -⟩ := (covers _).mp member
    exact named ((List.cons.inj same).1 ▸ named')

end

end Entry
end Files
end Flotilla
