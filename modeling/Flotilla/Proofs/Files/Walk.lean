import Flotilla.Files.Packing
import Flotilla.Proofs.Files.Folder

/-! A tree as the row of its locations. An archive holds a tree depth first, each directory before what
it holds and its entries by name: its members are what lies at the locations, in the order of the
locations as rows of names. All of the tree can be packed exactly if no path in it is too long and no
file is closed. -/
namespace Flotilla.Files

namespace Packing
variable {x y : Packing} {xs : List Packing}

theorem andThen_ok_iff :
    (x.andThen y).outcome = .ok () ↔ x.outcome = .ok () ∧ y.outcome = .ok () := by
  unfold andThen
  cases came : x.outcome <;> simp [came]

theorem members_andThen (ok : x.outcome = .ok ()) : (x.andThen y).members = x.members ++ y.members := by
  rw [andThen, ok]

theorem all_ok_iff : (all xs).outcome = .ok () ↔ ∀ x ∈ xs, x.outcome = .ok () := by
  induction xs with
  | nil => simp [all, whole]
  | cons x xs ih =>
    rw [List.forall_mem_cons, ← ih]
    exact andThen_ok_iff

theorem members_all (ok : (all xs).outcome = .ok ()) : (all xs).members = xs.flatMap (·.members) := by
  induction xs with
  | nil => rfl
  | cons x xs ih =>
    obtain ⟨first, rest⟩ := andThen_ok_iff.mp ok
    rw [List.flatMap_cons, ← ih rest]
    exact members_andThen first

theorem entry_of_ok (ok : x.outcome = .ok ()) : x.entry = .archive x.members := by
  rw [entry, ok]

theorem entry_of_error {why : FileFault} (failed : x.outcome = .error why) :
    x.entry = .torn x.members := by
  rw [entry, failed]

theorem isPlain_entry (x : Packing) : x.entry.IsPlain := by
  unfold entry
  split <;> exact ⟨nofun, nofun⟩

theorem isSound_entry (x : Packing) : x.entry.IsSound := by
  unfold entry
  split
  · exact .archive _
  · exact .torn _

end Packing

namespace Entry

def member (name : String) : Entry → Member
  | file text => ⟨name, false, some text⟩
  | directory _ => ⟨name, true, none⟩
  | _ => ⟨name, false, none⟩

def memberAt (e : Entry) (above l : List String) : Member :=
  ((e.at? l).getD empty).member (Text.joinWith "/" (above ++ l))

/-- A row of locations: all of an entry's, each once and in order. -/
structure Walk (e : Entry) (ls : List (List String)) : Prop where
  sorted : ls.Pairwise (· < ·)
  mem_iff : ∀ l, l ∈ ls ↔ (e.at? l).isSome

theorem joinWith_cons_cons (a b : String) (r : List String) :
    Text.joinWith "/" ((a ++ "/" ++ b) :: r) = Text.joinWith "/" (a :: b :: r) := by
  cases r with
  | nil => simp [Text.joinWith]
  | cons c r => simp [Text.joinWith, String.append_assoc]

theorem packs_eq (skip location : List String) (path name : String) (es : List (String × Entry)) :
    packs skip location path name es = es.map fun c => (c.1,
      pack skip (location ++ [c.1]) (path ++ "/" ++ c.1) (name ++ "/" ++ c.1) c.2) := by
  induction es with
  | nil => rfl
  | cons c r ih => rw [packs, ih, List.map_cons]

theorem sortByName_perm {α : Type} (xs : List (String × α)) : (sortByName xs).Perm xs :=
  List.mergeSort_perm _ _

theorem pairwise_sortByName {α : Type} {xs : List (String × α)} (distinct : (xs.map (·.1)).Nodup) :
    (sortByName xs).Pairwise fun a b => a.1 < b.1 := by
  have trans (a b c : String × α) (hab : decide (a.1 ≤ b.1)) (hbc : decide (b.1 ≤ c.1)) :
      decide (a.1 ≤ c.1) :=
    decide_eq_true (String.le_trans (of_decide_eq_true hab) (of_decide_eq_true hbc))
  have total (a b : String × α) : (decide (a.1 ≤ b.1) || decide (b.1 ≤ a.1)) = true := by
    simpa using String.le_total a.1 b.1
  have sorted := List.pairwise_mergeSort trans total xs
  have names : ((sortByName xs).map (·.1)).Nodup :=
    ((sortByName_perm xs).map (·.1)).nodup_iff.mpr distinct
  rw [List.nodup_iff_pairwise_ne, List.pairwise_map] at names
  exact (sorted.and names).imp fun h => Std.lt_of_le_of_ne (of_decide_eq_true h.1) h.2

section
variable (e : Entry) (name : String)

theorem memberAt_cons {c : Entry} {n : String} (child : e.child? n = some c) (r : List String) :
    e.memberAt [name] (n :: r) = c.memberAt [name ++ "/" ++ n] r := by
  rw [memberAt, memberAt, List.singleton_append, List.singleton_append, joinWith_cons_cons, at?_cons,
    child]
  rfl

/-- The entries of a directory, each with all below it, as locations. -/
theorem exists_branches {gs : List (String × Packing)} (sorted : gs.Pairwise fun a b => a.1 < b.1)
    (each : ∀ g ∈ gs, ∃ c ls, e.child? g.1 = some c ∧ c.Walk ls ∧
      g.2.members = ls.map (c.memberAt [name ++ "/" ++ g.1])) :
    ∃ ls : List (List String), ls.Pairwise (· < ·) ∧
      (∀ l, l ∈ ls ↔ ∃ n r, l = n :: r ∧ n ∈ gs.map (·.1) ∧ (e.at? l).isSome) ∧
      (gs.map (·.2)).flatMap (·.members) = ls.map (e.memberAt [name]) := by
  induction gs with
  | nil => exact ⟨[], .nil, by simp, rfl⟩
  | cons g gs ih =>
    obtain ⟨below, sorted'⟩ := List.pairwise_cons.mp sorted
    obtain ⟨ls', ordered', covers', same'⟩ := ih sorted' fun g' member =>
      each g' (List.mem_cons_of_mem g member)
    obtain ⟨c, ls, child, walk, same⟩ := each g List.mem_cons_self
    refine ⟨ls.map (g.1 :: ·) ++ ls', ?_, fun l => ?_, ?_⟩
    · refine List.pairwise_append.mpr ⟨?_, ordered', ?_⟩
      · exact List.pairwise_map.mpr (walk.sorted.imp fun before =>
          List.cons_lt_cons_iff.mpr (.inr ⟨rfl, before⟩))
      · intro a first b second
        obtain ⟨r, -, rfl⟩ := List.mem_map.mp first
        obtain ⟨n, r', rfl, later, -⟩ := (covers' b).mp second
        obtain ⟨g', member, rfl⟩ := List.mem_map.mp later
        exact List.cons_lt_cons_iff.mpr (.inl (below g' member))
    · have here (r : List String) : r ∈ ls ↔ (e.at? (g.1 :: r)).isSome := by
        rw [walk.mem_iff, at?_cons, child]
        rfl
      rw [List.mem_append, List.mem_map, covers']
      constructor
      · rintro (⟨r, member, rfl⟩ | ⟨n, r, rfl, later, there⟩)
        · exact ⟨g.1, r, rfl, List.mem_cons_self, (here r).mp member⟩
        · exact ⟨n, r, rfl, List.mem_cons_of_mem _ later, there⟩
      · rintro ⟨n, r, rfl, member, there⟩
        rcases List.mem_cons.mp member with rfl | later
        · exact .inl ⟨r, (here r).mpr there, rfl⟩
        · exact .inr ⟨n, r, rfl, later, there⟩
    · rw [List.map_cons, List.flatMap_cons, same', same, List.map_append, List.map_map]
      congr 1
      exact List.map_congr_left fun r _ => (memberAt_cons e name child r).symm

end

theorem walk_single {e : Entry} (file : e.kind ≠ .directory) : e.Walk [[]] := by
  refine ⟨List.pairwise_singleton _ _, fun l => ?_⟩
  cases l with
  | nil => exact iff_of_true (List.mem_singleton_self []) rfl
  | cons n r =>
    have none : e.child? n = none := by
      cases child : e.child? n with
      | none => rfl
      | some c => exact absurd (kind_of_child? child) file
    simp [at?_cons, none]

theorem forall_at?_of_file {e : Entry} (file : e.kind ≠ .directory) {P : List String → Entry → Prop} :
    (∀ l c, e.at? l = some c → P l c) ↔ P [] e := by
  refine ⟨fun all => all [] e rfl, fun here l c found => ?_⟩
  have at_top := ((walk_single file).mem_iff l).mpr (by rw [found]; rfl)
  obtain rfl := List.mem_singleton.mp at_top
  exact Option.some.inj found ▸ here

theorem forall_at?_of_directory {es : List (String × Entry)} (sound : (directory es).IsSound)
    {P : List String → Entry → Prop} : (∀ l c, (directory es).at? l = some c → P l c) ↔
      P [] (directory es) ∧ ∀ b ∈ es, ∀ l c, b.2.at? l = some c → P (b.1 :: l) c := by
  refine ⟨fun all => ⟨all [] _ rfl, fun b listed l c found => all _ c ?_⟩, fun each l c found => ?_⟩
  · rw [at?_cons, sound.child?_eq_some_iff.mpr listed]
    exact found
  · cases l with
    | nil => exact Option.some.inj found ▸ each.1
    | cons n r =>
      rw [at?_cons] at found
      obtain ⟨b, child, below⟩ := Option.bind_eq_some_iff.mp found
      exact each.2 (n, b) (sound.child?_eq_some_iff.mp child) r c below

/-- All of an entry can be packed, but for what lies at or below a location: the path of nothing in it
is too long, and no file closed. -/
def IsPackable (skip location : List String) (path : String) (e : Entry) : Prop :=
  ∀ l c, e.at? l = some c → ¬ skip <+: location ++ l →
    (Text.joinWith "/" (path :: l)).utf8ByteSize < Disk.pathLimit ∧ c.kind ≠ .closed

theorem isPackable_of_below {skip location : List String} (below : skip <+: location) (path : String)
    (e : Entry) : e.IsPackable skip location path :=
  fun l _ _ apart => absurd (below.trans (List.prefix_append location l)) apart

section
variable {skip location : List String} {path : String}

theorem reach_ok_iff {x : Packing} (elsewhere : location ≠ skip) :
    (reach skip location path x).outcome = .ok () ↔
      path.utf8ByteSize < Disk.pathLimit ∧ x.outcome = .ok () := by
  rw [reach, if_neg elsewhere]
  split
  · exact iff_of_false nofun fun h => absurd h.1 (by omega)
  · exact (and_iff_right (by omega)).symm

theorem isPackable_iff_of_file {e : Entry} (file : e.kind ≠ .directory) (apart : ¬ skip <+: location) :
    e.IsPackable skip location path ↔ path.utf8ByteSize < Disk.pathLimit ∧ e.kind ≠ .closed := by
  rw [IsPackable, forall_at?_of_file file, List.append_nil]
  exact forall_prop_of_true apart

theorem isPackable_iff_of_directory {es : List (String × Entry)} (sound : (directory es).IsSound)
    (apart : ¬ skip <+: location) : (directory es).IsPackable skip location path ↔
      path.utf8ByteSize < Disk.pathLimit ∧
        ∀ b ∈ es, b.2.IsPackable skip (location ++ [b.1]) (path ++ "/" ++ b.1) := by
  rw [IsPackable, forall_at?_of_directory sound]
  refine and_congr ?_ (forall₂_congr fun b _ => ?_)
  · rw [List.append_nil, forall_prop_of_true apart]
    exact and_iff_left nofun
  · simp only [IsPackable, List.append_assoc, List.singleton_append, joinWith_cons_cons]

theorem pack_skipped (e : Entry) (skip : List String) (path name : String) :
    e.pack skip skip path name = .whole [] := by
  cases e <;> simp only [pack, reach, if_true]

theorem pack_ok_iff {e : Entry} (sound : e.IsSound) (name : String)
    (above : skip <+: location → location = skip) :
    (e.pack skip location path name).outcome = .ok () ↔ e.IsPackable skip location path := by
  induction sound generalizing location path name with
  | directory distinct names sound ih =>
    by_cases here : location = skip
    · subst here
      rw [pack_skipped]
      exact iff_of_true rfl (isPackable_of_below List.prefix_rfl path _)
    · rw [isPackable_iff_of_directory (.directory distinct names sound) fun below => here (above below),
        pack, reach_ok_iff here, Packing.andThen_ok_iff, Packing.all_ok_iff]
      refine and_congr_right fun _ => (and_iff_right rfl).trans ?_
      simp only [List.forall_mem_map, (sortByName_perm _).mem_iff, packs_eq]
      refine forall₂_congr fun b listed => ih b listed _ fun below => ?_
      -- What is left out lies no higher than this entry, as it does not lie above its directory.
      rcases List.prefix_concat_iff.mp below with same | higher
      · exact same.symm
      · exact absurd (above higher) here
  | _ =>
    by_cases here : location = skip
    · subst here
      rw [pack_skipped]
      exact iff_of_true rfl (isPackable_of_below List.prefix_rfl path _)
    · rw [isPackable_iff_of_file (by simp [kind]) fun below => here (above below), pack,
        reach_ok_iff here]
      simp [Packing.whole, Packing.broken, kind]

theorem members_pack {e : Entry} (sound : e.IsSound) (apart : ¬ location <+: skip) (name : String)
    (ok : (e.pack skip location path name).outcome = .ok ()) :
    ∃ ls, e.Walk ls ∧ (e.pack skip location path name).members = ls.map (e.memberAt [name]) := by
  have elsewhere : location ≠ skip := fun same => apart (same ▸ List.prefix_rfl)
  induction sound generalizing location path name with
  | @directory es distinct names sound ih =>
    have whole : IsSound (directory es) := .directory distinct names sound
    rw [pack, reach_ok_iff elsewhere, Packing.andThen_ok_iff] at ok
    obtain ⟨short, -, ok⟩ := ok
    have fits : ¬ path.utf8ByteSize ≥ Disk.pathLimit := Nat.not_le_of_lt short
    have listed := packs_eq skip location path name es
    have perm := sortByName_perm (packs skip location path name es)
    have distinct' : ((packs skip location path name es).map (·.1)).Nodup := by
      rwa [listed, List.map_map]
    -- Each entry is walked by itself, and the walks follow each other in the order of the names.
    obtain ⟨ls, ordered, covers, same⟩ := exists_branches (directory es) name
      (pairwise_sortByName distinct') fun g member => by
        have came := Packing.all_ok_iff.mp ok g.2 (List.mem_map_of_mem member)
        rw [perm.mem_iff, listed] at member
        obtain ⟨c, there, rfl⟩ := List.mem_map.mp member
        have apart' : ¬ location ++ [c.1] <+: skip := fun below =>
          apart ((List.prefix_append _ _).trans below)
        obtain ⟨ls, walk, same⟩ := ih c there apart' (name ++ "/" ++ c.1) came
          fun same => apart' (same ▸ List.prefix_rfl)
        exact ⟨c.2, ls, whole.child?_eq_some_iff.mpr there, walk, same⟩
    refine ⟨[] :: ls, ⟨?_, fun l => ?_⟩, ?_⟩
    · refine List.pairwise_cons.mpr ⟨fun l member => ?_, ordered⟩
      obtain ⟨n, r, rfl, -⟩ := (covers l).mp member
      exact List.nil_lt_cons n r
    · cases l with
      | nil => exact iff_of_true List.mem_cons_self rfl
      | cons n r =>
        rw [List.mem_cons, covers, or_iff_right nofun]
        constructor
        · rintro ⟨_, _, -, -, there⟩
          exact there
        · intro there
          refine ⟨n, r, rfl, ?_, there⟩
          obtain ⟨f, found⟩ := Option.isSome_iff_exists.mp there
          rw [at?_cons] at found
          obtain ⟨c, child, -⟩ := Option.bind_eq_some_iff.mp found
          rw [(perm.map (·.1)).mem_iff, listed, List.map_map]
          exact List.mem_map.mpr ⟨(n, c), whole.child?_eq_some_iff.mp child, rfl⟩
    · rw [pack, reach, if_neg elsewhere, if_neg fits, Packing.members_andThen rfl,
        Packing.members_all ok, same, List.map_cons]
      rfl
  | closed =>
    rw [pack, reach_ok_iff elsewhere] at ok
    cases ok.2
  | file _ | archive _ | torn _ =>
    rw [pack, reach_ok_iff elsewhere] at ok
    refine ⟨[[]], walk_single nofun, ?_⟩
    rw [pack, reach, if_neg elsewhere, if_neg (Nat.not_le_of_lt ok.1)]
    rfl

end

end Entry

namespace Disk

def Packable (d : Disk) (archive : List String) (path : String) : Prop :=
  ∃ here e, d.HasAt path here e ∧ e.IsPackable archive here path

theorem packable_of_pack {d : Disk} {archive : List String} {path name : String}
    (ok : (d.pack archive path name).outcome = .ok ()) : ∃ here e, d.HasAt path here e ∧
      d.pack archive path name = e.pack archive here path name := by
  unfold Disk.pack at ok ⊢
  cases located : d.locate path with
  | error why =>
    rw [located] at ok
    cases ok
  | ok here =>
    cases found : d.root.at? here with
    | none =>
      simp only [located, found] at ok
      cases ok
    | some e => exact ⟨here, e, ⟨located, found⟩, by dsimp only; rw [found]⟩

theorem pack_ok_iff {d : Disk} (sound : d.root.IsSound) {archive : List String} {a : Entry}
    (there : d.root.at? archive = some a) (file : a.kind ≠ .directory) (path name : String) :
    (d.pack archive path name).outcome = .ok () ↔ d.Packable archive path := by
  have above {here : List String} {e : Entry} (found : d.root.at? here = some e)
      (below : archive <+: here) : here = archive := by
    obtain ⟨_ | ⟨n, r⟩, rfl⟩ := below
    · exact List.append_nil _
    · obtain ⟨f, found', kind⟩ := Entry.kind_of_at?_append found
      obtain rfl := Option.some.inj (found'.symm.trans there)
      exact absurd kind file
  constructor
  · intro ok
    obtain ⟨here, e, lies, same⟩ := packable_of_pack ok
    rw [same] at ok
    exact ⟨here, e, lies, (Entry.pack_ok_iff (sound.at? lies.found) name (above lies.found)).mp ok⟩
  · rintro ⟨here, e, lies, packable⟩
    rw [Disk.pack, lies.located]
    dsimp only
    rw [lies.found]
    exact (Entry.pack_ok_iff (sound.at? lies.found) name (above lies.found)).mpr packable

end Disk
end Flotilla.Files
