import Mathlib.Data.List.Nodup
import Flotilla.Fleet.Basic
import Flotilla.Proofs.Steps

namespace Flotilla

/-- Pairs of members are told apart where what is made of them tells a key of the first and the second. -/
theorem nodup_flatMap_map {α β γ κ : Type} {key : α → κ} {f : α → β → γ} {xs : List α} {ys : List β}
    (keys : (xs.map key).Nodup) (distinct : ys.Nodup)
    (apart : ∀ a ∈ xs, ∀ b ∈ xs, ∀ u v, f a u = f b v → key a = key b ∧ u = v) :
    (xs.flatMap fun a => ys.map (f a)).Nodup := by
  rw [List.nodup_flatMap]
  refine ⟨fun a ha => distinct.map fun u v same => (apart a ha a ha u v same).2, ?_⟩
  rw [List.Nodup, List.pairwise_map] at keys
  refine keys.imp_of_mem fun {a b} ha hb other => ?_
  intro c left right
  obtain ⟨u, -, rfl⟩ := List.mem_map.mp left
  obtain ⟨v, -, same⟩ := List.mem_map.mp right
  exact other (apart b hb a ha v u same).1.symm

/-- Of what is made of members with distinct keys, each part can be found by the key of its member. -/
theorem filter_flatMap_eq {α β κ : Type} [DecidableEq κ] (key : α → κ) {key' : β → κ}
    {f : α → List β} (kept : ∀ a, ∀ b ∈ f a, key' b = key a) {xs : List α}
    (distinct : (xs.map key).Nodup) {a : α} (ha : a ∈ xs) :
    (xs.flatMap f).filter (key' · = key a) = f a := by
  obtain ⟨before, later, rfl⟩ := List.append_of_mem ha
  have others (part : List α) (apart : ∀ b ∈ part, key b ≠ key a) :
      (part.flatMap f).filter (key' · = key a) = [] := by
    apply List.filter_eq_nil_iff.mpr
    intro c hc
    obtain ⟨b, hb, made⟩ := List.mem_flatMap.mp hc
    simpa [kept b c made] using apart b hb
  have own : (f a).filter (key' · = key a) = f a := by
    apply List.filter_eq_self.mpr
    intro b hb
    simpa using kept a b hb
  rw [List.map_append, List.map_cons, List.nodup_append, List.nodup_cons] at distinct
  obtain ⟨-, ⟨fresh, -⟩, apart⟩ := distinct
  have first := others before fun b hb =>
    apart _ (List.mem_map_of_mem hb) _ List.mem_cons_self
  have last := others later fun b hb same => fresh (same ▸ List.mem_map_of_mem hb)
  simp [first, own, last]

theorem filter_map_eq {α β κ : Type} [DecidableEq κ] (key : α → κ) (key' : β → κ) {g : α → β}
    (kept : ∀ a, key' (g a) = key a) {xs : List α} (distinct : (xs.map key).Nodup) {a : α} (ha : a ∈ xs) :
    (xs.map g).filter (key' · = key a) = [g a] := by
  rw [List.map_eq_flatMap]
  exact filter_flatMap_eq key (by simp [kept]) distinct ha

namespace Node

theorem toList_name {n : Node} {k : Nat} (h : n.id = k) :
    n.name.toList = "node".toList ++ Nat.toDigits 10 k := by
  rw [name, h, ← Nat.toList_repr]
  simp [toString, Int.repr]

theorem name_inj {n m : Node} {j k : Nat} (hn : n.id = j) (hm : m.id = k) (h : n.name = m.name) :
    n.id = m.id := by
  have digits : Nat.toDigits 10 j = Nat.toDigits 10 k := by
    rw [← String.toList_inj, toList_name hn, toList_name hm] at h
    exact List.append_cancel_left h
  rw [hn, hm, ← Nat.ofDigitChars_ten_toDigits (n := j), digits, Nat.ofDigitChars_ten_toDigits]

theorem slash_notMem_name {n : Node} {k : Nat} (h : n.id = k) : '/' ∉ n.name.toList := by
  rw [toList_name h, List.mem_append]
  rintro (letter | digit)
  · exact absurd letter (by decide)
  · exact absurd (Nat.isDigit_of_mem_toDigits (by decide) (by decide) digit) (by decide)

theorem key_inj {n m : Node} {j k : Nat} {u v : String} (hn : n.id = j) (hm : m.id = k)
    (h : s!"{n.name}/{u}" = s!"{m.name}/{v}") : n.id = m.id ∧ u = v := by
  have cut {n : Node} {k : Nat} (hn : n.id = k) (u : String) :
      (s!"{n.name}/{u}").toList.takeWhile (· != '/') = n.name.toList := by
    have inside : ∀ c ∈ n.name.toList, c != '/' := fun c hc =>
      bne_iff_ne.mpr fun slash => slash_notMem_name hn (slash ▸ hc)
    simp [toString, List.takeWhile_append_of_pos inside]
  have names : n.name = m.name := by
    rw [← String.toList_inj, ← cut hn u, h, cut hm v]
  refine ⟨name_inj hn hm names, ?_⟩
  rw [names, ← String.toList_inj] at h
  rw [← String.toList_inj]
  simpa [toString] using h

end Node

namespace Fleet

theorem hasOrdinals_of_checkNodes {nodes : List Node} (h : checkNodes nodes = .ok ()) :
    hasOrdinals nodes := by
  unfold checkNodes at h
  split at h
  · cases h
  · split at h
    · cases h
    · next ordinals => simpa using ordinals

theorem of_resolve {nodes : List Node} {r : Request} {f : Fleet} (resolved : resolve nodes r = .ok f) :
    checkNodes f.nodes = .ok () ∧
      ∃ v, f.instances = f.nodes.flatMap fun n => (layout v).map (place f.topology f.scenario n) := by
  obtain ⟨_, checked, resolved⟩ := ok_of_bind resolved
  obtain ⟨v, -, resolved⟩ := ok_of_bind resolved
  obtain ⟨_, -, resolved⟩ := ok_of_bind resolved
  obtain ⟨_, -, resolved⟩ := ok_of_bind resolved
  obtain ⟨_, -, resolved⟩ := ok_of_bind resolved
  obtain ⟨_, -, resolved⟩ := ok_of_bind resolved
  obtain ⟨_, -, resolved⟩ := ok_of_bind resolved
  cases resolved
  exact ⟨checked, v, rfl⟩

theorem hasOrdinals_of_resolve {nodes : List Node} {r : Request} {f : Fleet}
    (resolved : resolve nodes r = .ok f) : hasOrdinals f.nodes :=
  hasOrdinals_of_checkNodes (of_resolve resolved).1

section
variable {nodes : List Node} (ordered : hasOrdinals nodes)
include ordered

theorem nodup_ids : (nodes.map (·.id)).Nodup := by
  rw [eq_of_beq ordered]
  exact List.nodup_range.map fun _ _ => Int.ofNat.inj

theorem exists_ordinal {n : Node} (hn : n ∈ nodes) : ∃ k : Nat, n.id = k := by
  have listed : n.id ∈ nodes.map (·.id) := List.mem_map_of_mem hn
  rw [eq_of_beq ordered] at listed
  obtain ⟨k, -, same⟩ := List.mem_map.mp listed
  exact ⟨k, same.symm⟩

theorem getElem?_ordinal {n : Node} (hn : n ∈ nodes) : ∃ k : Nat, n.id = k ∧ nodes[k]? = some n := by
  obtain ⟨k, bound, rfl⟩ := List.mem_iff_getElem.mp hn
  have listed := congrArg (·[k]?) (eq_of_beq ordered)
  simp [bound] at listed
  exact ⟨k, listed, List.getElem?_eq_getElem bound⟩

theorem nodup_names : (nodes.map (·.name)).Nodup := by
  have ids := nodup_ids ordered
  rw [List.Nodup, List.pairwise_map] at ids ⊢
  refine ids.imp_of_mem fun hn hm distinct same => distinct ?_
  obtain ⟨j, hj⟩ := exists_ordinal ordered hn
  obtain ⟨k, hk⟩ := exists_ordinal ordered hm
  exact Node.name_inj hj hk same

theorem nodup_keys {units : List String} (distinct : units.Nodup) :
    (nodes.flatMap fun n => units.map fun u => s!"{n.name}/{u}").Nodup := by
  apply nodup_flatMap_map (nodup_ids ordered) distinct
  intro n hn m hm u v same
  obtain ⟨j, hj⟩ := exists_ordinal ordered hn
  obtain ⟨k, hk⟩ := exists_ordinal ordered hm
  exact Node.key_inj hj hk same

end

theorem node_mem {nodes : List Node} {r : Request} {f : Fleet} (resolved : resolve nodes r = .ok f)
    {i : Instance} (hi : i ∈ f.instances) : i.node ∈ f.nodes := by
  obtain ⟨v, instances⟩ := (of_resolve resolved).2
  rw [instances] at hi
  obtain ⟨n, hn, placed⟩ := List.mem_flatMap.mp hi
  obtain ⟨slot, -, rfl⟩ := List.mem_map.mp placed
  exact hn

theorem instancesOn_ne_nil {nodes : List Node} {r : Request} {f : Fleet}
    (resolved : resolve nodes r = .ok f) {n : Node} (hn : n ∈ f.nodes) : f.instancesOn n ≠ [] := by
  obtain ⟨v, instances⟩ := (of_resolve resolved).2
  have slot : ∃ slot, slot ∈ layout v := by cases v <;> exact ⟨_, List.mem_cons_self⟩
  obtain ⟨slot, listed⟩ := slot
  have placed : place f.topology f.scenario n slot ∈ f.instances := by
    rw [instances]
    exact List.mem_flatMap.mpr ⟨n, hn, List.mem_map_of_mem listed⟩
  exact List.ne_nil_of_mem (List.mem_filter.mpr ⟨placed, by simp [place]⟩)

theorem nodup_layout (v : Variant) : ((layout v).map (·.name)).Nodup := by
  cases v <;> decide

theorem nodup_instance_keys {nodes : List Node} {r : Request} {f : Fleet}
    (resolved : resolve nodes r = .ok f) : (f.instances.map (·.key)).Nodup := by
  obtain ⟨v, instances⟩ := (of_resolve resolved).2
  have keys := nodup_keys (hasOrdinals_of_resolve resolved) (nodup_layout v)
  rw [instances]
  simpa [List.map_flatMap, Function.comp_def, Instance.key, place] using keys

end Fleet
end Flotilla
