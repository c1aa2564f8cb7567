import Flotilla.Executor.Basic

/-! What a session keeps. Its hosts stay as they are, events and records are only added, and no handle
loses a task or forgets that it was issued; so of each step only what it adds has to be said: the
connections it opens, and what the caller writes into the log. -/
namespace Flotilla

namespace Executor.Handle
variable {γ : Type}

structure Grows (h h' : Handle γ) : Prop where
  tasks : h'.tasks = h.tasks
  issued : ∀ key, h.isIssued key → h'.isIssued key

namespace Grows

theorem refl (h : Handle γ) : h.Grows h := ⟨rfl, fun _ => id⟩

theorem trans {h h' h'' : Handle γ} (a : h.Grows h') (b : h'.Grows h'') : h.Grows h'' :=
  ⟨b.tasks.trans a.tasks, fun key hk => b.issued key (a.issued key hk)⟩

theorem allIssued {h h' : Handle γ} (g : h.Grows h') (all : h.allIssued) : h'.allIssued := by
  unfold Handle.allIssued at *
  rw [g.tasks]
  exact List.all_eq_true.mpr fun t ht => g.issued _ (List.all_eq_true.mp all t ht)

theorem settle (h : Handle γ) (key : String) : h.Grows (h.settle key).2 where
  tasks := h.settle_tasks key
  issued := by
    unfold Handle.settle Handle.isIssued
    grind

theorem markIssued (h : Handle γ) (key : String) (connection : Option γ) :
    h.Grows (h.markIssued key connection).2 := by
  cases connection with
  | none => exact settle h key
  | some c =>
    have kept : h.Grows { h with connections := h.connections.put key c } := ⟨rfl, fun _ => id⟩
    exact kept.trans (settle _ key)

theorem complete (h : Handle γ) (r : Result) : h.Grows (h.complete r) := ⟨rfl, fun _ => id⟩

theorem markIssueFailed (h : Handle γ) (r : Result) : h.Grows (h.markIssueFailed r).2 := by
  have kept : h.Grows { h.complete r with issueFailures := r.key :: h.issueFailures } :=
    ⟨rfl, fun _ => id⟩
  exact kept.trans (settle _ r.key)

theorem close (h : Handle γ) : h.Grows h.close.1 := ⟨rfl, fun _ => id⟩

end Grows
end Executor.Handle

def Happening.opening? (h : Happening) : Option Host.Channel :=
  match h.event with
  | .connect .. => some h.channel
  | _ => none

def openings (hs : List Happening) : List Host.Channel := hs.filterMap Happening.opening?

def spoken (rs : List (Speaker × Log.Record)) : List Log.Record :=
  (rs.filter (·.1 = .caller)).map (·.2)

namespace Session

theorem happen_nil (s : Session) (c : Connection) : s.happen c [] = s := by simp [happen]

theorem happen_cons (s : Session) (c : Connection) (event : Host.Event) (later : List Host.Event) :
    s.happen c (event :: later) = (s.happen c [event]).happen c later := by simp [happen]

theorem handle?_updateHandle (s : Session) (id j : Nat)
    (f : Executor.Handle Connection → Executor.Handle Connection) :
    (s.updateHandle id f).handle? j = if id = j then (s.handle? j).map f else s.handle? j := by
  rw [updateHandle, handle?, List.getElem?_modify]
  split <;> simp [handle?]

theorem handle?_updateHandle_self {s : Session} {id : Nat} {h : Executor.Handle Connection}
    (f : Executor.Handle Connection → Executor.Handle Connection) (found : s.handle? id = some h) :
    (s.updateHandle id f).handle? id = some (f h) := by
  rw [handle?_updateHandle, if_pos rfl, found, Option.map_some]

def Keeps (s s' : Session) : Prop :=
  ∀ {id h}, s.handle? id = some h → ∃ h', s'.handle? id = some h' ∧ h.Grows h'

structure Grows (s s' : Session) (opened : List Host.Channel) (said : List Log.Record) : Prop where
  hosts : s'.hosts = s.hosts
  trace : ∃ new, s'.trace = s.trace ++ new ∧ openings new = opened
  log : ∃ new, s'.log = s.log ++ new ∧ spoken new = said
  handles : s.Keeps s'

namespace Grows

theorem refl (s : Session) : s.Grows s [] [] :=
  ⟨rfl, ⟨[], by simp, rfl⟩, ⟨[], by simp, rfl⟩, fun {_ h} found => ⟨h, found, .refl h⟩⟩

theorem trans {s s' s'' : Session} {opened opened' : List Host.Channel} {said said' : List Log.Record}
    (a : s.Grows s' opened said) (b : s'.Grows s'' opened' said') :
    s.Grows s'' (opened ++ opened') (said ++ said') where
  hosts := b.hosts.trans a.hosts
  trace := by
    obtain ⟨new, ha, rfl⟩ := a.trace
    obtain ⟨new', hb, rfl⟩ := b.trace
    exact ⟨new ++ new', by rw [hb, ha, List.append_assoc], List.filterMap_append⟩
  log := by
    obtain ⟨new, ha, rfl⟩ := a.log
    obtain ⟨new', hb, rfl⟩ := b.log
    exact ⟨new ++ new', by rw [hb, ha, List.append_assoc], by simp [spoken]⟩
  handles := by
    intro id h found
    obtain ⟨h', found', grows⟩ := a.handles found
    obtain ⟨h'', found'', grows'⟩ := b.handles found'
    exact ⟨h'', found'', grows.trans grows'⟩

theorem updateHandle (s : Session) (id : Nat)
    {f : Executor.Handle Connection → Executor.Handle Connection}
    (grows : ∀ h : Executor.Handle Connection, h.Grows (f h)) :
    s.Grows (s.updateHandle id f) [] [] where
  hosts := rfl
  trace := ⟨[], by simp [Session.updateHandle], rfl⟩
  log := ⟨[], by simp [Session.updateHandle], rfl⟩
  handles := by
    intro j h found
    rw [handle?_updateHandle, found]
    split
    · exact ⟨f h, rfl, grows h⟩
    · exact ⟨h, rfl, .refl h⟩

theorem happen (s : Session) (c : Connection) (events : List Host.Event) :
    s.Grows (s.happen c events)
      (openings (events.map fun e => ⟨c.id, c.channel, e⟩)) [] where
  hosts := rfl
  trace := ⟨_, rfl, rfl⟩
  log := ⟨[], by simp [Session.happen], rfl⟩
  handles := fun {_ h} found => ⟨h, found, .refl h⟩

theorem note (s : Session) (who : Speaker) (r : Log.Record) :
    s.Grows (s.note who r) [] (spoken [(who, r)]) where
  hosts := rfl
  trace := ⟨[], by simp [Session.note], rfl⟩
  log := ⟨_, rfl, rfl⟩
  handles := fun {_ h} found => ⟨h, found, .refl h⟩

theorem openings_drop {s s' : Session} {opened : List Host.Channel} {said : List Log.Record}
    (g : s.Grows s' opened said) : openings (s'.trace.drop s.trace.length) = opened := by
  obtain ⟨new, added, rfl⟩ := g.trace
  rw [added, List.drop_left]

theorem recordsSince {s s' : Session} {opened : List Host.Channel} {said : List Log.Record}
    (g : s.Grows s' opened said) : s'.recordsSince s .caller = said := by
  obtain ⟨new, added, rfl⟩ := g.log
  rw [Session.recordsSince, added, List.drop_left]
  rfl

end Grows

def Opens (s s' : Session) (opened : List Host.Channel) : Prop := ∃ said, s.Grows s' opened said

namespace Opens

theorem refl (s : Session) : s.Opens s [] := ⟨[], .refl s⟩

theorem trans {s s' s'' : Session} {opened opened' : List Host.Channel}
    (a : s.Opens s' opened) (b : s'.Opens s'' opened') : s.Opens s'' (opened ++ opened') := by
  obtain ⟨said, ha⟩ := a
  obtain ⟨said', hb⟩ := b
  exact ⟨said ++ said', ha.trans hb⟩

end Opens

/-- Nothing is opened and no handle is lost, whatever becomes of the hosts. -/
structure Lasts (s s' : Session) : Prop where
  trace : ∃ new, s'.trace = s.trace ++ new ∧ openings new = []
  handles : s.Keeps s'

end Session

namespace Executor
open Session

theorem finish_grows (s : Session) (r : Running) : s.Grows (finish s r) [] [] := by
  have entered : s.Grows (s.updateHandle r.handle fun h =>
      h.complete (.ofOutcome r.task (Host.Exchange.awaited r.connection.behaviour))) [] [] :=
    .updateHandle s r.handle fun h => .complete h _
  have closed := entered.trans (.happen _ r.connection [.close])
  exact ⟨closed.hosts, closed.trace, closed.log, closed.handles⟩

theorem finishAll_grows (s : Session) (which : Running → Bool) :
    s.Grows (finishAll s which) [] [] :=
  List.foldlRecOn (motive := fun s' => s.Grows s' [] []) _ finish (.refl s)
    fun _ g r _ => g.trans (finish_grows _ r)

theorem pause_grows (s : Session) : s.Grows (pause s) [] [] := by
  unfold pause
  split
  · exact .refl s
  · next which later _ =>
    have ended := finishAll_grows { s with meanwhile := later } which
    exact ⟨ended.hosts, ended.trace, ended.log, ended.handles⟩

end Executor
end Flotilla
