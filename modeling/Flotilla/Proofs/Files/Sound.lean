import Flotilla.Proofs.Files.Disk
import Flotilla.Table

namespace Flotilla.Files

namespace Disk

def isName (name : String) : Bool :=
  !isDots name && !isTooLong name && !hasNul name && !name.toList.contains '/'

theorem isName_iff {name : String} : isName name = true ↔
    isDots name = false ∧ isTooLong name = false ∧ hasNul name = false ∧ '/' ∉ name.toList := by
  simp [isName, and_assoc]

end Disk

namespace Entry

inductive IsSound : Entry → Prop
  | file (text : String) : IsSound (file text)
  | closed : IsSound closed
  | archive (members : List Member) : IsSound (archive members)
  | torn (members : List Member) : IsSound (torn members)
  | directory {es : List (String × Entry)} : (es.map (·.1)).Nodup →
      (∀ c ∈ es, Disk.isName c.1) → (∀ c ∈ es, IsSound c.2) → IsSound (directory es)

mutual

def checkSound : Entry → Bool
  | directory es => decide (es.map (·.1)).Nodup && checkAll es
  | _ => true

def checkAll : List (String × Entry) → Bool
  | [] => true
  | (n, e) :: r => Disk.isName n && e.checkSound && checkAll r

end

mutual

theorem checkSound_iff (e : Entry) : e.checkSound = true ↔ e.IsSound := by
  cases e with
  | file text => exact iff_of_true rfl (.file text)
  | closed => exact iff_of_true rfl .closed
  | archive members => exact iff_of_true rfl (.archive members)
  | torn members => exact iff_of_true rfl (.torn members)
  | directory es =>
    rw [checkSound, Bool.and_eq_true, decide_eq_true_iff, checkAll_iff es]
    constructor
    · rintro ⟨distinct, names, sound⟩
      exact .directory distinct names sound
    · rintro (_ | _ | _ | _ | ⟨distinct, names, sound⟩)
      exact ⟨distinct, names, sound⟩

theorem checkAll_iff (es : List (String × Entry)) : checkAll es = true ↔
    (∀ c ∈ es, Disk.isName c.1) ∧ ∀ c ∈ es, c.2.IsSound := by
  cases es with
  | nil => simp [checkAll]
  | cons c r =>
    rw [checkAll, Bool.and_eq_true, Bool.and_eq_true, checkSound_iff c.2, checkAll_iff r,
      List.forall_mem_cons, List.forall_mem_cons]
    exact and_and_and_comm

end

instance (e : Entry) : Decidable e.IsSound := decidable_of_iff _ (checkSound_iff e)

theorem putChild_eq (name : String) (c : Entry) (es : List (String × Entry)) :
    putChild name c es = Table.putEntry name c es := by
  induction es with
  | nil => rfl
  | cons e r ih => simp only [putChild, Table.putEntry, ih]

theorem mem_putChild {name : String} {c : Entry} {es : List (String × Entry)} {p : String × Entry}
    (h : p ∈ putChild name c es) : p = (name, c) ∨ p ∈ es := by
  induction es with
  | nil => exact .inl (by simpa [putChild] using h)
  | cons e r ih => grind [putChild]

namespace IsSound
variable {e : Entry}

theorem nodup (h : e.IsSound) : (e.entries.map (·.1)).Nodup := by
  cases h with
  | directory distinct _ _ => exact distinct
  | _ => exact .nil

theorem isName (h : e.IsSound) {c : String × Entry} (member : c ∈ e.entries) :
    Disk.isName c.1 := by
  cases h with
  | directory _ names _ => exact names c member
  | _ => cases member

theorem of_mem (h : e.IsSound) {c : String × Entry} (member : c ∈ e.entries) : c.2.IsSound := by
  cases h with
  | directory _ _ sound => exact sound c member
  | _ => cases member

theorem child?_eq_some_iff (h : e.IsSound) {name : String} {c : Entry} :
    e.child? name = some c ↔ (name, c) ∈ e.entries := Table.lookup_eq_some_iff h.nodup

theorem at? (h : e.IsSound) {l : List String} {f : Entry} (found : e.at? l = some f) :
    f.IsSound := by
  induction l generalizing e with
  | nil => exact Option.some.inj found ▸ h
  | cons name r ih =>
    rw [at?_cons] at found
    obtain ⟨c, child, there⟩ := Option.bind_eq_some_iff.mp found
    exact ih (h.of_mem (h.child?_eq_some_iff.mp child)) there

theorem putChild (h : e.IsSound) {name : String} (proper : Disk.isName name) {c : Entry}
    (sound : c.IsSound) : (Entry.directory (Entry.putChild name c e.entries)).IsSound := by
  refine .directory ?_ (fun p member => ?_) (fun p member => ?_)
  · rw [putChild_eq]
    exact Table.nodup_putEntry name c h.nodup
  · rcases mem_putChild member with rfl | old
    · exact proper
    · exact h.isName old
  · rcases mem_putChild member with rfl | old
    · exact sound
    · exact h.of_mem old

theorem put (h : e.IsSound) {parent : List String} {name : String} (proper : Disk.isName name)
    {c : Entry} (sound : c.IsSound) : (e.put (parent ++ [name]) c).IsSound := by
  induction parent generalizing e with
  | nil => exact h.putChild proper sound
  | cons n r ih =>
    rw [List.cons_append, put_cons (by simp)]
    cases child : e.child? n with
    | none => exact h
    | some inner =>
      have member := h.child?_eq_some_iff.mp child
      exact h.putChild (h.isName member) (ih (h.of_mem member))

end IsSound
end Entry

end Flotilla.Files
