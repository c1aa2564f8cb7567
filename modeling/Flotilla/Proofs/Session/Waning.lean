import Flotilla.Proofs.Session.Growth
import Flotilla.Proofs.Steps

namespace Flotilla

def IsClosed (hs : List Happening) (id : Nat) : Prop :=
  ∃ h ∈ hs, h.connection = id ∧ h.event = .close

theorem IsClosed.append {hs : List Happening} {id : Nat} (h : IsClosed hs id)
    (new : List Happening) : IsClosed (hs ++ new) id := by
  obtain ⟨x, hx, closed⟩ := h
  exact ⟨x, List.mem_append_left _ hx, closed⟩

def Connection.closing (c : Connection) : Happening := ⟨c.id, c.channel, .close⟩

namespace Session

structure Wanes (s s' : Session) : Prop where
  trace : ∃ new, s'.trace = s.trace ++ new ∧ ∀ h ∈ new, h.event = .close
  running : ∀ r ∈ s'.running, r ∈ s.running
  ended : ∀ r ∈ s.running, r ∈ s'.running ∨ IsClosed s'.trace r.connection.id
  connections : ∀ {id h}, s.handle? id = some h →
    ∃ h', s'.handle? id = some h' ∧ h'.connections = h.connections
  /-- A handle with no command running is left as it is. -/
  apart : ∀ {id}, (∀ r ∈ s.running, r.handle ≠ id) → s'.handle? id = s.handle? id

namespace Wanes
variable {s s' s'' : Session}

theorem refl (s : Session) : s.Wanes s :=
  ⟨⟨[], by simp, by simp⟩, fun _ => id, fun _ => .inl, fun {_ h} found => ⟨h, found, rfl⟩,
    fun _ => rfl⟩

theorem closed (w : s.Wanes s') {id : Nat} (h : IsClosed s.trace id) : IsClosed s'.trace id := by
  obtain ⟨new, passed, -⟩ := w.trace
  rw [passed]
  exact h.append new

theorem trans (a : s.Wanes s') (b : s'.Wanes s'') : s.Wanes s'' where
  trace := by
    obtain ⟨new, ha, closings⟩ := a.trace
    obtain ⟨new', hb, closings'⟩ := b.trace
    exact ⟨new ++ new', by rw [hb, ha, List.append_assoc],
      List.forall_mem_append.mpr ⟨closings, closings'⟩⟩
  running := fun r hr => a.running r (b.running r hr)
  ended := by
    intro r hr
    cases a.ended r hr with
    | inl runs => exact b.ended r runs
    | inr closed => exact .inr (b.closed closed)
  connections := by
    intro id h found
    obtain ⟨h', found', same⟩ := a.connections found
    obtain ⟨h'', found'', same'⟩ := b.connections found'
    exact ⟨h'', found'', same'.trans same⟩
  apart := fun none => (b.apart fun r hr => none r (a.running r hr)).trans (a.apart none)

theorem happen_close (s : Session) (c : Connection) : s.Wanes (s.happen c [.close]) :=
  ⟨⟨[c.closing], rfl, by simp [Connection.closing]⟩, fun _ => id, fun _ => .inl,
    fun {_ h} found => ⟨h, found, rfl⟩, fun _ => rfl⟩

end Wanes
end Session

namespace Executor
open Session

theorem finish_wanes {s s' : Session} (w : s.Wanes s') {r : Running} (hr : r ∈ s.running) :
    s.Wanes (finish s' r) where
  trace := by
    obtain ⟨new, passed, closings⟩ := w.trace
    refine ⟨new ++ [r.connection.closing], ?_, ?_⟩
    · rw [← List.append_assoc, ← passed]
      rfl
    · simpa [Connection.closing, or_imp, forall_and] using closings
  running := fun q hq => w.running q (List.mem_filter.mp hq).1
  ended := by
    intro q hq
    have closing : r.connection.closing ∈ (finish s' r).trace :=
      List.mem_append_right _ (by simp [Connection.closing])
    by_cases same : q = r
    · exact .inr ⟨_, closing, same ▸ rfl, rfl⟩
    · cases w.ended q hq with
      | inl runs => exact .inl (List.mem_filter.mpr ⟨runs, by simpa using same⟩)
      | inr closed => exact .inr (closed.append _)
  connections := by
    intro id h found
    obtain ⟨h', found', same⟩ := w.connections found
    change ∃ h', (s'.updateHandle _ _).handle? id = some h' ∧ _
    rw [handle?_updateHandle, found']
    split
    · exact ⟨_, rfl, same⟩
    · exact ⟨h', rfl, same⟩
  apart := by
    intro id none
    change (s'.updateHandle _ _).handle? id = _
    rw [handle?_updateHandle, if_neg (none r hr), w.apart none]

theorem finishAll_wanes (s : Session) (which : Running → Bool) : s.Wanes (finishAll s which) :=
  List.foldlRecOn (motive := s.Wanes) _ finish (.refl s)
    fun _ w _ hr => finish_wanes w (List.mem_filter.mp hr).1

theorem pause_wanes (s : Session) : s.Wanes (pause s) := by
  unfold pause
  split
  · exact .refl s
  · next which later _ =>
    have ended := finishAll_wanes { s with meanwhile := later } which
    exact ⟨ended.trace, ended.running, ended.ended, ended.connections, ended.apart⟩

theorem join_wanes (id : Nat) (s : Session) : s.Wanes (exec (join id) s).2 := pause_wanes s

theorem hangUp_wanes (s : Session) (c : Connection) : s.Wanes (hangUp s c) :=
  (pause_wanes s).trans (.happen_close _ c)

theorem hangUps_wanes (cs : List Connection) (s : Session) : s.Wanes (cs.foldl hangUp s) :=
  List.foldlRecOn (motive := s.Wanes) cs hangUp (.refl s) fun _ w c _ => w.trans (hangUp_wanes _ c)

theorem trace_hangUps (cs : List Connection) (s : Session) :
    ∃ new, (cs.foldl hangUp s).trace = s.trace ++ new ∧ (cs.map Connection.closing).Sublist new := by
  induction cs generalizing s with
  | nil => exact ⟨[], by simp, .slnil⟩
  | cons c r ih =>
    obtain ⟨before, paused, -⟩ := (pause_wanes s).trace
    obtain ⟨new, rest, closings⟩ := ih (hangUp s c)
    refine ⟨before ++ c.closing :: new, ?_, (closings.cons_cons _).trans (List.sublist_append_right _ _)⟩
    rw [List.foldl_cons, rest, hangUp, Session.happen, paused]
    simp [Connection.closing]

theorem exec_close_of_handle {id : Nat} {s : Session} {h : Handle Connection}
    (found : s.handle? id = some h) :
    exec (close id) s =
      (.ok ⟨⟩, h.connections.values.foldl hangUp (s.updateHandle id fun h => h.close.1)) := by
  rw [close, exec_modify, found]
  rfl

end Executor
end Flotilla
