import Flotilla.Session

namespace Flotilla

variable {ε σ α β : Type}

def exec (x : ExceptT ε (StateM σ) α) (s : σ) : Except ε α × σ := (ExceptT.run x).run s

@[simp] theorem exec_pure (a : α) (s : σ) :
    exec (pure a : ExceptT ε (StateM σ) α) s = (.ok a, s) := rfl

@[simp] theorem exec_throw (e : ε) (s : σ) :
    exec (throw e : ExceptT ε (StateM σ) α) s = (.error e, s) := rfl

@[simp] theorem exec_get (s : σ) : exec (get : ExceptT ε (StateM σ) σ) s = (.ok s, s) := rfl

@[simp] theorem exec_set (s s' : σ) :
    exec (set s' : ExceptT ε (StateM σ) PUnit) s = (.ok ⟨⟩, s') := rfl

@[simp] theorem exec_modify (f : σ → σ) (s : σ) :
    exec (modify f : ExceptT ε (StateM σ) PUnit) s = (.ok ⟨⟩, f s) := rfl

@[simp] theorem exec_lift (x : Except Fault α) (s : Session) : exec (Run.lift x) s = (x, s) := by
  cases x <;> rfl

theorem exec_bind (x : ExceptT ε (StateM σ) α) (f : α → ExceptT ε (StateM σ) β) (s : σ) :
    exec (x >>= f) s = match exec x s with
      | (.ok a, s') => exec (f a) s'
      | (.error e, s') => (.error e, s') := by
  simp only [exec, ExceptT.run_bind, StateT.run_bind]
  rcases (ExceptT.run x).run s with ⟨_ | _, s'⟩ <;> rfl

theorem exec_bind_ok {x : ExceptT ε (StateM σ) α} {s s' : σ} {a : α} (h : exec x s = (.ok a, s'))
    (f : α → ExceptT ε (StateM σ) β) : exec (x >>= f) s = exec (f a) s' := by
  rw [exec_bind, h]

theorem exec_bind_error {x : ExceptT ε (StateM σ) α} {s s' : σ} {e : ε}
    (h : exec x s = (.error e, s')) (f : α → ExceptT ε (StateM σ) β) :
    exec (x >>= f) s = (.error e, s') := by
  rw [exec_bind, h]

theorem of_exec_bind {x : ExceptT ε (StateM σ) α} {f : α → ExceptT ε (StateM σ) β} {s s' : σ} {b : β}
    (h : exec (x >>= f) s = (.ok b, s')) :
    ∃ a t, exec x s = (.ok a, t) ∧ exec (f a) t = (.ok b, s') := by
  rw [exec_bind] at h
  rcases taken : exec x s with ⟨_ | a, t⟩ <;> rw [taken] at h
  · cases h
  · exact ⟨a, t, rfl, h⟩

theorem fault_of_exec_bind {x : ExceptT ε (StateM σ) α} {f : α → ExceptT ε (StateM σ) β} {s : σ} {e : ε}
    (h : (exec (x >>= f) s).1 = .error e) :
    (exec x s).1 = .error e ∨ ∃ a t, exec x s = (.ok a, t) ∧ (exec (f a) t).1 = .error e := by
  rw [exec_bind] at h
  rcases taken : exec x s with ⟨_ | a, t⟩ <;> rw [taken] at h
  · exact .inl (congrArg Except.error (Except.error.inj h))
  · exact .inr ⟨a, t, rfl, h⟩

theorem exec_of_toBool {x : ExceptT ε (StateM σ) α} {s : σ} (ok : (exec x s).1.toBool = true) :
    ∃ a s', exec x s = (.ok a, s') := by
  rcases ran : exec x s with ⟨_ | a, s'⟩ <;> rw [ran] at ok
  · cases ok
  · exact ⟨a, s', rfl⟩

theorem exec_foldlM {f : β → α → ExceptT ε (StateM σ) β} {g : β → α → β} {I : σ → Prop} {xs : List α}
    (step : ∀ b, ∀ a ∈ xs, ∀ s, I s → ∃ s', exec (f b a) s = (.ok (g b a), s') ∧ I s') (b : β)
    {s : σ} (h : I s) : ∃ s', exec (xs.foldlM f b) s = (.ok (xs.foldl g b), s') ∧ I s' := by
  induction xs generalizing b s with
  | nil => exact ⟨s, rfl, h⟩
  | cons a r ih =>
    obtain ⟨s', first, kept⟩ := step b a List.mem_cons_self s h
    rw [List.foldlM_cons, exec_bind_ok first]
    exact ih (fun b a ha => step b a (List.mem_cons_of_mem _ ha)) (g b a) kept

theorem ok_of_bind {x : Except ε α} {f : α → Except ε β} {b : β} (h : x >>= f = .ok b) :
    ∃ a, x = .ok a ∧ f a = .ok b := by
  cases x with
  | ok a => exact ⟨a, rfl, h⟩
  | error e => cases h

theorem mapM_ite (c : α → Bool) (g : α → β) (e : ε) (xs : List α) :
    xs.mapM (fun x => if c x then Except.ok (g x) else .error e) =
      if xs.all c then .ok (xs.map g) else .error e := by
  induction xs with
  | nil => rfl
  | cons x r ih =>
    rw [List.mapM_cons, ih, List.all_cons]
    cases c x <;> cases r.all c <;> rfl

theorem mapM_eq_ok {f : α → Except ε β} {g : α → β} {xs : List α}
    (h : ∀ x ∈ xs, f x = .ok (g x)) : xs.mapM f = .ok (xs.map g) := by
  induction xs with
  | nil => rfl
  | cons x r ih =>
    rw [List.mapM_cons, h x List.mem_cons_self, ih fun y member => h y (List.mem_cons_of_mem x member)]
    rfl

end Flotilla
