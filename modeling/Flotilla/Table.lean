/-! Tables whose entries keep the order in which their keys were first put. Putting a key again
replaces its value in place, so a table is known by its keys in order and what it has for each. -/
namespace Flotilla

/-- No key has two entries. -/
structure Table (κ α : Type) where
  entries : List (κ × α)
  nodup : (entries.map (·.1)).Nodup
  deriving Repr, DecidableEq

namespace Table
variable {κ α β : Type} [DecidableEq κ]

def empty : Table κ α := ⟨[], .nil⟩

instance : Inhabited (Table κ α) := ⟨empty⟩

def putEntry (k : κ) (a : α) : List (κ × α) → List (κ × α)
  | [] => [(k, a)]
  | (k', a') :: r => if k' = k then (k', a) :: r else (k', a') :: putEntry k a r

theorem map_putEntry (k : κ) (a : α) (es : List (κ × α)) :
    (putEntry k a es).map (·.1) =
      if k ∈ es.map (·.1) then es.map (·.1) else es.map (·.1) ++ [k] := by
  induction es with
  | nil => rfl
  | cons e r ih => grind [putEntry]

theorem nodup_putEntry (k : κ) (a : α) {es : List (κ × α)} (h : (es.map (·.1)).Nodup) :
    ((putEntry k a es).map (·.1)).Nodup := by
  rw [map_putEntry]
  split
  · exact h
  · grind [List.nodup_append]

def put (t : Table κ α) (k : κ) (a : α) : Table κ α :=
  ⟨putEntry k a t.entries, nodup_putEntry k a t.nodup⟩

def get? (t : Table κ α) (k : κ) : Option α := t.entries.lookup k

def contains (t : Table κ α) (k : κ) : Bool := (t.get? k).isSome

def keys (t : Table κ α) : List κ := t.entries.map (·.1)

def values (t : Table κ α) : List α := t.entries.map (·.2)

def putNew (t : Table κ α) (k : κ) (a : α) : Table κ α := if t.contains k then t else t.put k a

def ofList (ps : List (κ × α)) : Table κ α := ps.foldl (fun t p => t.put p.1 p.2) empty

def filter (p : κ → α → Bool) (t : Table κ α) : Table κ α :=
  ⟨t.entries.filter fun e => p e.1 e.2, t.nodup.sublist (List.filter_sublist.map _)⟩

@[simp] theorem lookup_putEntry (k j : κ) (a : α) (es : List (κ × α)) :
    (putEntry k a es).lookup j = if j = k then some a else es.lookup j := by
  induction es with
  | nil => grind [putEntry]
  | cons e r ih => grind [putEntry]

theorem get?_put (t : Table κ α) (k j : κ) (a : α) :
    (t.put k a).get? j = if j = k then some a else t.get? j := lookup_putEntry k j a t.entries

theorem keys_put (t : Table κ α) (k : κ) (a : α) :
    (t.put k a).keys = if k ∈ t.keys then t.keys else t.keys ++ [k] := map_putEntry k a t.entries

@[simp] theorem get?_empty (k : κ) : (empty : Table κ α).get? k = none := rfl

omit [DecidableEq κ] in
@[simp] theorem keys_empty : (empty : Table κ α).keys = [] := rfl

theorem lookup_eq_some_iff {es : List (κ × α)} (h : (es.map (·.1)).Nodup) {k : κ} {a : α} :
    es.lookup k = some a ↔ (k, a) ∈ es := by
  induction es with
  | nil => simp
  | cons e r ih => grind

theorem get?_eq_some_iff (t : Table κ α) {k : κ} {a : α} :
    t.get? k = some a ↔ (k, a) ∈ t.entries := lookup_eq_some_iff t.nodup

theorem mem_keys_iff (t : Table κ α) (k : κ) : k ∈ t.keys ↔ ∃ a, t.get? k = some a := by
  simp [keys, get?_eq_some_iff]

theorem get?_putNew (t : Table κ α) (k j : κ) (a : α) :
    (t.putNew k a).get? j = if j = k then some ((t.get? k).getD a) else t.get? j := by
  unfold putNew contains
  cases h : t.get? k <;> grind [get?_put]

theorem get?_filter (p : κ → α → Bool) (t : Table κ α) (k : κ) :
    (t.filter p).get? k = (t.get? k).filter (p k) := by
  apply Option.ext
  intro a
  simp [get?_eq_some_iff, filter, Option.filter_eq_some_iff]

omit [DecidableEq κ] in
theorem eq_of_entries {t u : Table κ α} (h : t.entries = u.entries) : t = u := by
  cases t
  cases u
  simpa using h

theorem ext_get? {t u : Table κ α} (keys : t.keys = u.keys) (values : ∀ k, t.get? k = u.get? k) :
    t = u := by
  have entries : t.entries = u.entries := by
    apply List.ext_getElem
    · simpa [Table.keys] using congrArg List.length keys
    · intro i ht hu
      have key : t.entries[i].1 = u.entries[i].1 := by
        have := List.getElem_of_eq keys (i := i) (by simpa [Table.keys] using ht)
        simpa [Table.keys] using this
      have left : t.get? t.entries[i].1 = some t.entries[i].2 :=
        t.get?_eq_some_iff.mpr (List.getElem_mem ht)
      have right : u.get? u.entries[i].1 = some u.entries[i].2 :=
        u.get?_eq_some_iff.mpr (List.getElem_mem hu)
      rw [values, key] at left
      exact Prod.ext key (Option.some.inj (left.symm.trans right))
  exact eq_of_entries entries

/-- Values that know their keys: those with a key are what the table has for it. -/
theorem filter_values_eq_toList {t : Table κ α} (key : α → κ) (h : ∀ e ∈ t.entries, key e.2 = e.1)
    (k : κ) : (t.values.filter fun a => key a = k) = (t.get? k).toList := by
  obtain ⟨es, nodup⟩ := t
  dsimp only [values, get?] at h ⊢
  induction es with
  | nil => rfl
  | cons e r ih =>
    obtain ⟨k', a⟩ := e
    rw [List.map_cons, List.nodup_cons] at nodup
    have first : key a = k' := h (k', a) (by simp)
    have rest := ih nodup.2 fun e he => h e (List.mem_cons_of_mem _ he)
    rw [List.map_cons, List.filter_cons, rest, List.lookup_cons, first]
    by_cases same : k = k'
    · subst same
      have absent : r.lookup k = none := by
        rw [List.lookup_eq_none_iff]
        intro e he
        have : e.1 ∈ r.map (·.1) := List.mem_map_of_mem he
        grind
      simp [absent]
    · have apart : (k == k') = false := beq_eq_false_iff_ne.mpr same
      simp [Ne.symm same, apart]

variable {τ : Type}

theorem keys_foldl_put_congr (key : τ → κ) (f g : τ → α) (xs : List τ) {t u : Table κ α}
    (h : t.keys = u.keys) :
    (xs.foldl (fun t x => t.put (key x) (f x)) t).keys =
      (xs.foldl (fun t x => t.put (key x) (g x)) u).keys := by
  induction xs generalizing t u with
  | nil => exact h
  | cons x r ih =>
    apply ih
    rw [keys_put, keys_put, h]

theorem keys_foldl_put (key : τ → κ) (f : τ → α) (xs : List τ) (t : Table κ α)
    (h : (t.keys ++ xs.map key).Nodup) :
    (xs.foldl (fun t x => t.put (key x) (f x)) t).keys = t.keys ++ xs.map key := by
  induction xs generalizing t with
  | nil => simp
  | cons x r ih =>
    have fresh : (t.put (key x) (f x)).keys = t.keys ++ [key x] := by
      rw [keys_put, if_neg]
      intro member
      exact (List.nodup_append.mp h).2.2 _ member _ (by simp) rfl
    rw [List.foldl_cons, ih]
    · simp [fresh]
    · simpa [fresh] using h

theorem get?_foldl_put_of_notMem (key : τ → κ) (f : τ → α) (xs : List τ) (t : Table κ α) {k : κ}
    (h : k ∉ xs.map key) :
    (xs.foldl (fun t x => t.put (key x) (f x)) t).get? k = t.get? k := by
  induction xs generalizing t with
  | nil => rfl
  | cons x r ih =>
    rw [List.map_cons, List.mem_cons, not_or] at h
    rw [List.foldl_cons, ih _ h.2, get?_put, if_neg h.1]

theorem get?_foldl_put_of_mem (key : τ → κ) (f : τ → α) {xs : List τ} (t : Table κ α)
    (distinct : (xs.map key).Nodup) {x : τ} (h : x ∈ xs) :
    (xs.foldl (fun t x => t.put (key x) (f x)) t).get? (key x) = some (f x) := by
  induction xs generalizing t with
  | nil => simp at h
  | cons y r ih =>
    rw [List.map_cons, List.nodup_cons] at distinct
    rw [List.foldl_cons]
    cases List.mem_cons.mp h with
    | inl first =>
      rw [get?_foldl_put_of_notMem _ _ _ _ (first ▸ distinct.1), get?_put, first, if_pos rfl]
    | inr later => exact ih _ distinct.2 later

def putAll (t : Table κ α) (rows : List (κ × α)) : Table κ α :=
  rows.foldl (fun t p => t.put p.1 p.2) t

theorem putAll_append (t : Table κ α) (rows rows' : List (κ × α)) :
    t.putAll (rows ++ rows') = (t.putAll rows).putAll rows' := List.foldl_append

theorem putEntry_of_notMem {k : κ} {es : List (κ × α)} (h : k ∉ es.map (·.1)) (a : α) :
    putEntry k a es = es ++ [(k, a)] := by
  induction es with
  | nil => rfl
  | cons e r ih =>
    rw [List.map_cons, List.mem_cons, not_or] at h
    rw [putEntry, if_neg (Ne.symm h.1), ih h.2, List.cons_append]

theorem putEntry_of_nodup {k : κ} {a : α} {es r : List (κ × α)}
    (distinct : ((es ++ (k, a) :: r).map (·.1)).Nodup) : putEntry k a es = es ++ [(k, a)] := by
  rw [List.map_append, List.nodup_append] at distinct
  exact putEntry_of_notMem (fun member => distinct.2.2 k member k List.mem_cons_self rfl) a

theorem entries_putAll {rows : List (κ × α)} {t : Table κ α}
    (h : (t.keys ++ rows.map (·.1)).Nodup) : (t.putAll rows).entries = t.entries ++ rows := by
  induction rows generalizing t with
  | nil => simp [putAll]
  | cons p r ih =>
    have new : p.1 ∉ t.keys := fun member =>
      (List.nodup_append.mp h).2.2 _ member _ (by simp) rfl
    have put : (t.put p.1 p.2).entries = t.entries ++ [p] := putEntry_of_notMem new p.2
    have keys : (t.put p.1 p.2).keys = t.keys ++ [p.1] := by rw [keys_put, if_neg new]
    rw [putAll, List.foldl_cons, ← putAll, ih (by simpa [keys] using h), put, List.append_assoc]
    rfl

theorem foldl_put_eq_putAll (key : τ → κ) (f : τ → α) (xs : List τ) (t : Table κ α) :
    xs.foldl (fun t x => t.put (key x) (f x)) t = t.putAll (xs.map fun x => (key x, f x)) := by
  rw [putAll, List.foldl_map]

theorem get?_putAll_of_mem {rows : List (κ × α)} (distinct : (rows.map (·.1)).Nodup) {k : κ} {a : α}
    (h : (k, a) ∈ rows) (t : Table κ α) : (t.putAll rows).get? k = some a :=
  get?_foldl_put_of_mem Prod.fst Prod.snd t distinct h

theorem get?_putAll_of_notMem {rows : List (κ × α)} {k : κ} (h : k ∉ rows.map (·.1))
    (t : Table κ α) : (t.putAll rows).get? k = t.get? k :=
  get?_foldl_put_of_notMem Prod.fst Prod.snd rows t h

theorem get?_putAll_map (keys : List κ) (f : κ → α) (t : Table κ α) (k : κ) :
    (t.putAll (keys.map fun k => (k, f k))).get? k = if k ∈ keys then some (f k) else t.get? k := by
  induction keys generalizing t with
  | nil => rfl
  | cons j r ih =>
    rw [List.map_cons, putAll, List.foldl_cons, ← putAll, ih, get?_put]
    grind

theorem mem_entries_putAll {rows : List (κ × α)} {t : Table κ α} {e : κ × α}
    (h : e ∈ (t.putAll rows).entries) : e ∈ t.entries ∨ e ∈ rows := by
  induction rows generalizing t with
  | nil => exact .inl h
  | cons p r ih =>
    cases ih h with
    | inl earlier =>
      rw [← get?_eq_some_iff, get?_put] at earlier
      split at earlier
      · next same =>
        have row : e = p := Prod.ext same (Option.some.inj earlier).symm
        exact .inr (row ▸ List.mem_cons_self)
      · exact .inl (t.get?_eq_some_iff.mp earlier)
    | inr later => exact .inr (List.mem_cons_of_mem _ later)

theorem mem_keys_putAll (rows : List (κ × α)) (t : Table κ α) (k : κ) :
    k ∈ (t.putAll rows).keys ↔ k ∈ t.keys ∨ k ∈ rows.map (·.1) := by
  induction rows generalizing t with
  | nil => simp [putAll]
  | cons p r ih =>
    have later := ih (t.put p.1 p.2)
    rw [keys_put] at later
    rw [putAll, List.foldl_cons, ← putAll, later]
    split <;> simp_all <;> grind

theorem keys_putAll_of_subset {rows : List (κ × α)} {t : Table κ α}
    (h : ∀ k ∈ rows.map (·.1), k ∈ t.keys) : (t.putAll rows).keys = t.keys := by
  induction rows generalizing t with
  | nil => rfl
  | cons p r ih =>
    have kept : (t.put p.1 p.2).keys = t.keys := by
      rw [keys_put, if_pos (h p.1 (by simp))]
    rw [putAll, List.foldl_cons, ← putAll, ih, kept]
    rw [kept]
    exact fun k hk => h k (List.mem_cons_of_mem _ hk)

/-- What was there before shows only where no row is put. -/
theorem get?_putAll_congr {rows : List (κ × α)} {t u : Table κ α} {k : κ}
    (h : k ∈ rows.map (·.1) ∨ t.get? k = u.get? k) :
    (t.putAll rows).get? k = (u.putAll rows).get? k := by
  induction rows generalizing t u with
  | nil => simpa [putAll] using h
  | cons p r ih =>
    rw [putAll, putAll, List.foldl_cons, List.foldl_cons]
    apply ih
    rw [get?_put, get?_put]
    grind

theorem keys_putAll (rows : List (κ × α)) (t : Table κ α) :
    (t.putAll rows).keys =
      (rows.map (·.1)).foldl (fun ks k => if k ∈ ks then ks else ks ++ [k]) t.keys := by
  induction rows generalizing t with
  | nil => rfl
  | cons p r ih => rw [putAll, List.foldl_cons, ← putAll, ih, keys_put, List.map_cons, List.foldl_cons]

theorem get?_eq_none_iff (t : Table κ α) (k : κ) : t.get? k = none ↔ k ∉ t.keys := by
  rw [mem_keys_iff, Option.eq_none_iff_forall_ne_some, not_exists]

/-- Rows that are put over rows with the same keys leave nothing of them, not even their order. -/
theorem putAll_eq_of_keys {rows rows' : List (κ × α)} {t : Table κ α}
    (same : rows'.map (·.1) = rows.map (·.1)) (h : t.keys = (empty.putAll rows').keys) :
    t.putAll rows = empty.putAll rows := by
  have fresh : t.keys = (empty.putAll rows).keys := by
    rw [h, keys_putAll, keys_putAll, same]
  have member (k : κ) : k ∈ t.keys ↔ k ∈ rows.map (·.1) := by
    simp [fresh, mem_keys_putAll]
  apply ext_get?
  · rw [keys_putAll_of_subset fun k hk => (member k).mpr hk, fresh]
  · intro k
    apply get?_putAll_congr
    by_cases hk : k ∈ rows.map (·.1)
    · exact .inl hk
    · rw [← member, ← get?_eq_none_iff] at hk
      exact .inr hk

end Table
end Flotilla
