import Mathlib.Data.List.Basic
import Flotilla.Fleet.Roster
import Flotilla.Proofs.Number.Written
import Flotilla.Proofs.Steps

/-! Which nodes a roster lists. A roster comes to nodes exactly if it lists them: as many as its size
says, with their ordinals, and with addresses that are there and are told apart. Whatever else comes of
it is found wrong with the settings, or a fault of the template where an ordinal is filled in; and where
a size is wrong, it may be too long to say so. -/
namespace Flotilla

namespace Misconfigured

theorem isWritable_sizeNotPositive (n : Int) : (sizeNotPositive n).isWritable = Number.fits n := rfl

theorem isWritable_hostCount {n : Int} {m : Nat} :
    (hostCount n m).isWritable ↔ Number.fits n ∧ Number.fits m := Bool.and_eq_true_iff

end Misconfigured

theorem Fault.ofMisconfigured_of_long {why : Misconfigured} (long : ¬ why.isWritable) :
    ofMisconfigured why = .value .unwritable := if_neg long

def BlamesSettings (x : Except Fault α) : Prop := ∀ f, x = .error f → ∃ why, f = .misconfigured why

/-- The settings are to blame, or too long for that to be said. -/
def BlamesUnless (long : Prop) (x : Except Fault α) : Prop :=
  ∀ f, x = .error f → (∃ why, f = .misconfigured why) ∨ long ∧ f = .value .unwritable

namespace BlamesUnless
variable {long : Prop}

theorem settings {x : Except Fault α} (blames : BlamesUnless long x) (short : ¬ long) : BlamesSettings x :=
  fun f failed => (blames f failed).resolve_right fun refused => short refused.1

theorem ok (a : α) : BlamesUnless long (.ok a) := nofun

theorem error (why : Misconfigured) : BlamesUnless long (.error (.misconfigured why) : Except Fault α) :=
  fun _ same => .inl ⟨why, (Except.error.inj same).symm⟩

theorem unwritable (h : long) : BlamesUnless long (.error (.value .unwritable) : Except Fault α) :=
  fun _ same => .inr ⟨h, (Except.error.inj same).symm⟩

theorem refused {why : Misconfigured} (h : ¬ why.isWritable → long) :
    BlamesUnless long (.error (.ofMisconfigured why) : Except Fault α) := by
  rw [Fault.ofMisconfigured]
  split
  · exact .error why
  · next long => exact .unwritable (h long)

theorem bind {x : Except Fault α} {g : α → Except Fault β} (first : BlamesUnless long x)
    (later : ∀ a, x = .ok a → BlamesUnless long (g a)) : BlamesUnless long (x >>= g) := by
  cases x with
  | ok a => exact later a rfl
  | error f =>
    rcases first f rfl with ⟨why, rfl⟩ | ⟨h, rfl⟩
    · exact .error why
    · exact .unwritable h

theorem ite {c : Prop} [Decidable c] {x y : Except Fault α} (hx : c → BlamesUnless long x)
    (hy : ¬ c → BlamesUnless long y) : BlamesUnless long (if c then x else y) := by
  split
  · next h => exact hx h
  · next h => exact hy h

end BlamesUnless

theorem bind_eq_ok_iff {ε α β : Type} {x : Except ε α} {f : α → Except ε β} {b : β} :
    x >>= f = .ok b ↔ ∃ a, x = .ok a ∧ f a = .ok b := by
  cases x <;> simp [bind, Except.bind]

namespace Roster

/-- A size that may be an integer, a template that is a text, and hosts, if there are any, as texts. -/
structure IsPlain (r : Roster) : Prop where
  size : r.size.IsCount
  template : ∃ t, r.template = .text t
  hosts : r.hosts = .null ∨ ∃ hs : List String, r.hosts = .list (hs.map .text)

/-- The addresses that a roster gives: its hosts without the blanks around them, or else its template
with one ordinal after the other filled in. -/
inductive Addresses (r : Roster) (w : Template.Objects) : List String → Prop
  | hosts {hs : List String} :
    r.hosts = .list (hs.map .text) → Addresses r w (hs.map Text.trim)
  | template {t : String} {addresses : List String} : r.hosts = .null → r.template = .text t →
    (List.range addresses.length).map (Template.apply w t) = addresses.map .ok → Addresses r w addresses

/-- Nodes that can be told apart: by their ordinals, and by addresses that are there. -/
structure Apart (nodes : List Node) : Prop where
  inhabited : nodes ≠ []
  ordinals : nodes.map (·.id) = (List.range nodes.length).map Int.ofNat
  addressed : ∀ n ∈ nodes, n.address ≠ ""
  distinct : (nodes.map (·.address)).Nodup

structure Lists (r : Roster) (w : Template.Objects) (nodes : List Node) : Prop extends Apart nodes where
  size : r.size.Denotes nodes.length
  addresses : r.Addresses w (nodes.map (·.address))

def Falters (r : Roster) (w : Template.Objects) (f : Template.Fault) : Prop :=
  r.hosts = .null ∧ ∃ t, r.template = .text t ∧
    ∃ size i : Nat, r.size.Denotes size ∧ i < size ∧ Template.apply w t i = .error f

/-- The size is wrong, and there are too many digits to say so. -/
inductive IsUntold (r : Roster) : Prop
  | size {n : Int} : r.size.Denotes n → n ≤ 0 → ¬ Number.fits n → IsUntold r
  | hosts {n : Int} {hs : List String} : r.size.Denotes n → 0 < n → r.hosts = .list (hs.map .text) →
    (hs.length : Int) ≠ n → ¬ (Number.fits n ∧ Number.fits hs.length) → IsUntold r

theorem readSize_eq_ok_iff {v : Value} (h : v.IsCount) {n : Int} : readSize v = .ok n ↔ v.Denotes n := by
  rw [← Value.toInt_eq_ok_iff h, readSize]
  cases read : v.toInt with
  | ok m => simp
  | error why =>
    obtain ⟨⟨unreadable, rfl⟩, -⟩ := Value.of_toInt_eq_error h read
    simp

theorem blamesSettings_readSize {v : Value} (h : v.IsCount) : BlamesSettings (readSize v) := by
  rw [readSize]
  cases read : v.toInt with
  | ok n => exact nofun
  | error why =>
    obtain ⟨⟨unreadable, rfl⟩, short⟩ := Value.of_toInt_eq_error h read
    have told : (Misconfigured.sizeNotInteger v).isWritable := short
    exact (BlamesUnless.refused (absurd told)).settings id

section
variable {w : Template.Objects}

theorem templateAddresses_eq_ok_iff {t : String} {start count : Nat} {addresses : List String} :
    templateAddresses w t start count = .ok addresses ↔
      (List.range' start count).map (Template.apply w t) = addresses.map .ok := by
  induction count generalizing start addresses with
  | zero => cases addresses <;> simp [templateAddresses]
  | succ count ih =>
    rw [templateAddresses, List.range'_succ, List.map_cons]
    cases first : Template.apply w t start with
    | error f => cases addresses <;> simp
    | ok a =>
      have rest (others : List String) : templateAddresses w t (start + 1) count = .ok others ↔
          (List.range' (start + 1) count).map (Template.apply w t) = others.map .ok := ih
      cases addresses with
      | nil => cases templateAddresses w t (start + 1) count <;> simp [Except.map]
      | cons b r =>
        simp only [List.map_cons, List.cons.injEq, ← rest, Except.ok.injEq]
        cases templateAddresses w t (start + 1) count <;> simp [Except.map]

/-- What stops a template is the first ordinal that it cannot be filled in with. -/
theorem templateAddresses_cases (t : String) (start count : Nat) :
    (∃ addresses, templateAddresses w t start count = .ok addresses) ∨
      ∃ i why, start ≤ i ∧ i < start + count ∧ Template.apply w t i = .error why ∧
        templateAddresses w t start count = .error (.ofTemplate why) := by
  induction count generalizing start with
  | zero => exact .inl ⟨[], rfl⟩
  | succ count ih =>
    rw [templateAddresses]
    cases first : Template.apply w t start with
    | error why => exact .inr ⟨start, why, Nat.le_refl _, by omega, first, rfl⟩
    | ok a =>
      rcases ih (start + 1) with ⟨others, rest⟩ | ⟨i, why, low, high, falters, rest⟩
      · exact .inl ⟨a :: others, by rw [rest]; rfl⟩
      · exact .inr ⟨i, why, by omega, by omega, falters, by rw [rest]; rfl⟩

theorem mapM_hostAddress (hs : List String) :
    (hs.map Value.text).mapM hostAddress = .ok (hs.map Text.trim) := by
  induction hs with
  | nil => rfl
  | cons h r ih => rw [List.map_cons, List.mapM_cons, ih]; rfl

theorem ofHosts_text (hs : List String) (size : Int) :
    ofHosts (.list (hs.map .text)) size =
      if (hs.length : Int) = size then .ok (hs.map Text.trim)
      else .error (.ofMisconfigured (.hostCount size hs.length)) := by
  have stripped : items (.list (hs.map .text)) = .ok (hs.map .text) := rfl
  rw [ofHosts, stripped]
  simp only [bind, Except.bind, mapM_hostAddress, List.length_map]

theorem addresses_of_template {r : Roster} (none : r.hosts = .null) {t : String}
    (template : r.template = .text t) (count : Nat) :
    r.addresses w count = templateAddresses w t 0 count := by
  rw [Roster.addresses, none, template, ofTemplate, Int.toNat_natCast]

theorem addresses_of_hosts {r : Roster} {hs : List String} (given : r.hosts = .list (hs.map .text))
    (count : Nat) : r.addresses w count =
      if hs.length = count then .ok (hs.map Text.trim)
      else .error (.ofMisconfigured (.hostCount count hs.length)) := by
  rw [Roster.addresses, given]
  dsimp only
  rw [ofHosts_text]
  simp only [Int.natCast_inj]

section
variable {r : Roster} (plain : r.IsPlain)
include plain

theorem addresses_eq_ok_iff {count : Nat} {addresses : List String} :
    r.addresses w count = .ok addresses ↔ r.Addresses w addresses ∧ addresses.length = count := by
  obtain ⟨t, template⟩ := plain.template
  rcases plain.hosts with none | ⟨hs, given⟩
  · rw [addresses_of_template none template, templateAddresses_eq_ok_iff, ← List.range_eq_range']
    constructor
    · intro all
      have length : addresses.length = count := by simpa using (congrArg List.length all).symm
      exact ⟨.template none template (length ▸ all), length⟩
    · rintro ⟨listed, rfl⟩
      cases listed with
      | hosts given => simp [none] at given
      | template _ same all =>
        rw [template] at same
        cases same
        exact all
  · rw [addresses_of_hosts given]
    constructor
    · intro listed
      split_ifs at listed with length
      obtain rfl := Except.ok.inj listed
      exact ⟨.hosts given, by simpa using length⟩
    · rintro ⟨listed, length⟩
      cases listed with
      | hosts same =>
        rw [given] at same
        obtain rfl : hs = _ := List.map_injective_iff.mpr (fun _ _ => Value.text.inj) (Value.list.inj same)
        rw [List.length_map] at length
        rw [if_pos length]
      | template none => simp [given] at none

theorem addresses_cases (count : Nat) :
    (∃ addresses, r.addresses w count = .ok addresses) ∨
      (∃ hs : List String, r.hosts = .list (hs.map .text) ∧ hs.length ≠ count ∧
        r.addresses w count = .error (.ofMisconfigured (.hostCount count hs.length))) ∨
      ∃ t i why, r.hosts = .null ∧ r.template = .text t ∧ i < count ∧
        Template.apply w t i = .error why ∧ r.addresses w count = .error (.ofTemplate why) := by
  obtain ⟨t, template⟩ := plain.template
  rcases plain.hosts with none | ⟨hs, given⟩
  · rw [addresses_of_template none template]
    rcases templateAddresses_cases (w := w) t 0 count with all | ⟨i, why, -, below, falters, stopped⟩
    · exact .inl all
    · exact .inr (.inr ⟨t, i, why, none, template, by omega, falters, stopped⟩)
  · rw [addresses_of_hosts given]
    split
    · exact .inl ⟨_, rfl⟩
    · next other => exact .inr (.inl ⟨hs, given, other, rfl⟩)

end

end

theorem map_id_number (start : Nat) (addresses : List String) :
    (number start addresses).map (·.id) = (List.range' start addresses.length).map Int.ofNat := by
  induction addresses generalizing start with
  | nil => rfl
  | cons a r ih => rw [number, List.map_cons, ih, List.length_cons, List.range'_succ]; rfl

theorem map_address_number (start : Nat) (addresses : List String) :
    (number start addresses).map (·.address) = addresses := by
  induction addresses generalizing start with
  | nil => rfl
  | cons a r ih => rw [number, List.map_cons, ih]

theorem eq_number_iff {nodes : List Node} {addresses : List String} : nodes = number 0 addresses ↔
    nodes.map (·.id) = (List.range nodes.length).map Int.ofNat ∧
      nodes.map (·.address) = addresses := by
  constructor
  · rintro rfl
    have length : (number 0 addresses).length = addresses.length := by
      simpa using congrArg List.length (map_address_number 0 addresses)
    rw [map_id_number, map_address_number, length, List.range_eq_range']
    exact ⟨rfl, rfl⟩
  · rintro ⟨ids, rfl⟩
    have pairs : nodes.map (fun n => (n.id, n.address)) =
        (number 0 (nodes.map (·.address))).map fun n => (n.id, n.address) := by
      rw [← List.zip_map', ← List.zip_map', map_id_number, map_address_number, ids,
        List.length_map, List.range_eq_range']
    refine List.map_injective_iff.mpr ?_ pairs
    rintro ⟨i, a⟩ ⟨j, b⟩ same
    rw [Prod.mk.injEq] at same
    rw [Node.mk.injEq]
    exact same

section
variable {w : Template.Objects}

theorem nodes_eq (r : Roster) : r.nodes w = readSize r.size >>= fun size =>
    if size ≤ 0 then .error (.ofMisconfigured (.sizeNotPositive size))
    else r.addresses w size >>= fun addresses =>
      if addresses.any (·.isEmpty) then .error (.misconfigured .emptyAddress)
      else if !isDistinct addresses then
        .error (.misconfigured (.addressesNotDistinct (Value.list (addresses.map .text)).literal))
      else .ok (number 0 addresses) := by
  rw [nodes]
  refine bind_congr fun size => ?_
  split
  · rfl
  · refine bind_congr fun addresses => ?_
    split
    · rfl
    · split <;> rfl

theorem ok_of_checks {addresses : List String} {nodes : List Node} :
    (if addresses.any (·.isEmpty) then .error (.misconfigured .emptyAddress)
      else if !isDistinct addresses then
        .error (.misconfigured (.addressesNotDistinct (Value.list (addresses.map .text)).literal))
      else .ok (number 0 addresses) : Except Fault (List Node)) = .ok nodes ↔
    (∀ a ∈ addresses, a ≠ "") ∧ addresses.Nodup ∧ number 0 addresses = nodes := by
  have addressed : addresses.any (·.isEmpty) = false ↔ ∀ a ∈ addresses, a ≠ "" := by simp
  rw [← addressed]
  cases addresses.any (·.isEmpty) <;> by_cases distinct : addresses.Nodup <;>
    simp [isDistinct, distinct]

theorem length_of_addresses {r : Roster} {size : Int} (positive : 0 < size) {addresses : List String}
    (given : r.addresses w size = .ok addresses) : (addresses.length : Int) = size := by
  unfold Roster.addresses at given
  split at given
  · unfold ofTemplate at given
    split at given
    · have filled := congrArg List.length (templateAddresses_eq_ok_iff.mp given)
      simp only [List.length_map, List.length_range'] at filled
      omega
    · cases given
  · obtain ⟨hosts, -, listed⟩ := bind_eq_ok_iff.mp given
    obtain ⟨stripped, -, checked⟩ := bind_eq_ok_iff.mp listed
    split at checked
    · next length =>
      obtain rfl := Except.ok.inj checked
      exact length
    · cases checked

theorem apart_of_nodes {r : Roster} {nodes : List Node} (came : r.nodes w = .ok nodes) :
    Apart nodes ∧ ∃ size : Int, readSize r.size = .ok size ∧ nodes.length = size ∧
      r.addresses w size = .ok (nodes.map (·.address)) := by
  rw [nodes_eq, bind_eq_ok_iff] at came
  obtain ⟨size, read, listed⟩ := came
  split at listed
  · cases listed
  · next positive =>
    obtain ⟨addresses, given, checked⟩ := bind_eq_ok_iff.mp listed
    obtain ⟨addressed, distinct, numbered⟩ := ok_of_checks.mp checked
    obtain ⟨ids, rfl⟩ := eq_number_iff.mp numbered.symm
    have length := length_of_addresses (by omega) given
    rw [List.length_map] at length
    refine ⟨⟨?_, ids, ?_, distinct⟩, size, read, length, given⟩
    · rintro rfl
      simp at length
      omega
    · simpa using addressed

/-- A roster comes to the nodes that it lists, and to no others. -/
theorem nodes_eq_ok_iff {r : Roster} (plain : r.IsPlain) {nodes : List Node} :
    r.nodes w = .ok nodes ↔ r.Lists w nodes := by
  constructor
  · intro came
    obtain ⟨apart, size, read, rfl, given⟩ := apart_of_nodes came
    exact ⟨apart, (readSize_eq_ok_iff plain.size).mp read, ((addresses_eq_ok_iff plain).mp given).1⟩
  · intro listed
    have some : 0 < nodes.length := List.length_pos_iff.mpr listed.inhabited
    rw [nodes_eq, bind_eq_ok_iff]
    refine ⟨nodes.length, (readSize_eq_ok_iff plain.size).mpr listed.size, ?_⟩
    rw [if_neg (by omega), bind_eq_ok_iff]
    refine ⟨nodes.map (·.address), ?_, ok_of_checks.mpr ⟨?_, listed.distinct, ?_⟩⟩
    · exact (addresses_eq_ok_iff plain).mpr ⟨listed.addresses, List.length_map _⟩
    · simpa using listed.addressed
    · exact (eq_number_iff.mpr ⟨listed.ordinals, rfl⟩).symm

theorem not_misconfigured_ofTemplate (why : Template.Fault) (f : Misconfigured) :
    Fault.ofTemplate why ≠ .misconfigured f := by
  cases why <;> nofun

/-- A roster fails because of its settings, which may be too long to be told, or because its template
falters. -/
theorem nodes_eq_error_cases {r : Roster} (plain : r.IsPlain) {f : Fault} (failed : r.nodes w = .error f) :
    (∃ why, f = .misconfigured why) ∨ (r.IsUntold ∧ f = .value .unwritable) ∨
      ∃ why, r.Falters w why ∧ f = .ofTemplate why := by
  rw [nodes_eq] at failed
  cases read : readSize r.size with
  | error g =>
    obtain ⟨why, rfl⟩ := blamesSettings_readSize plain.size g read
    rw [read] at failed
    exact .inl ⟨why, (Except.error.inj failed).symm⟩
  | ok size =>
    have denoted := (readSize_eq_ok_iff plain.size).mp read
    have refused {why : Misconfigured} (untold : ¬ why.isWritable → r.IsUntold)
        (same : (.error (.ofMisconfigured why) : Except Fault (List Node)) = .error f) :
        (∃ why, f = .misconfigured why) ∨ r.IsUntold ∧ f = .value .unwritable :=
      BlamesUnless.refused untold f same
    rw [read] at failed
    change (if size ≤ 0 then _ else _) = _ at failed
    split at failed
    · next low =>
      refine or_assoc.mp (.inl (refused (fun long => ?_) failed))
      exact .size denoted low (Misconfigured.isWritable_sizeNotPositive size ▸ long)
    · next positive =>
      obtain ⟨count, rfl⟩ := Int.eq_ofNat_of_zero_le (a := size) (by omega)
      rcases addresses_cases (w := w) plain count with
        ⟨addresses, given⟩ | ⟨hs, hosts, other, given⟩ | ⟨t, i, why, none, template, below, falters, given⟩
      · rw [given] at failed
        change (if _ then _ else _) = _ at failed
        split at failed
        · exact .inl ⟨_, (Except.error.inj failed).symm⟩
        · split at failed
          · exact .inl ⟨_, (Except.error.inj failed).symm⟩
          · cases failed
      · rw [given] at failed
        refine or_assoc.mp (.inl (refused (fun long => ?_) failed))
        exact .hosts denoted (by omega) hosts (by omega) (mt Misconfigured.isWritable_hostCount.mpr long)
      · rw [given] at failed
        exact .inr (.inr ⟨why, ⟨none, t, template, count, i, denoted, below, falters⟩,
          (Except.error.inj failed).symm⟩)

theorem nodes_of_isUntold {r : Roster} (plain : r.IsPlain) (h : r.IsUntold) :
    r.nodes w = .error (.value .unwritable) := by
  cases h with
  | @size n denoted low long =>
    rw [← Misconfigured.isWritable_sizeNotPositive] at long
    rw [nodes_eq, (readSize_eq_ok_iff plain.size).mpr denoted]
    change (if _ then _ else _) = _
    rw [if_pos low, Fault.ofMisconfigured_of_long long]
  | @hosts n hs denoted positive given other long =>
    obtain ⟨count, rfl⟩ := Int.eq_ofNat_of_zero_le (a := n) (by omega)
    rw [nodes_eq, (readSize_eq_ok_iff plain.size).mpr denoted]
    change (if _ then _ else r.addresses w count >>= _) = _
    rw [if_neg (by omega), addresses_of_hosts given, if_neg (by omega),
      Fault.ofMisconfigured_of_long (mt Misconfigured.isWritable_hostCount.mp long)]
    rfl

theorem nodes_of_falters {r : Roster} (plain : r.IsPlain) {why : Template.Fault} (h : r.Falters w why) :
    ∃ why, r.Falters w why ∧ r.nodes w = .error (.ofTemplate why) := by
  obtain ⟨none, t, template, size, i, denoted, below, falters⟩ := h
  have read := (readSize_eq_ok_iff plain.size).mpr denoted
  have given := addresses_of_template (w := w) none template size
  rw [nodes_eq, read]
  change ∃ why, r.Falters w why ∧ (if (size : Int) ≤ 0 then _ else r.addresses w size >>= _) = _
  rw [if_neg (by omega), given]
  rcases templateAddresses_cases (w := w) t 0 size with
    ⟨addresses, all⟩ | ⟨j, first, -, low, falters', stopped⟩
  · have filled := templateAddresses_eq_ok_iff.mp all
    have listed : Template.apply w t i ∈ addresses.map .ok := by
      rw [← filled]
      exact List.mem_map_of_mem (by simpa using below)
    rw [falters] at listed
    simp at listed
  · rw [stopped]
    exact ⟨first, ⟨none, t, template, size, j, denoted, by omega, falters'⟩, rfl⟩

end

end Roster
end Flotilla
