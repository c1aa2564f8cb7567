import Flotilla.Host.Exchange

namespace Flotilla.Host

def Event.opens : Event → Bool
  | .connect .. => true
  | _ => false

def Behaviour.Answers (b : Behaviour) : Prop := b.connectError = none ∧ b.runError = none

instance (b : Behaviour) : Decidable b.Answers := inferInstanceAs (Decidable (_ ∧ _))

namespace Exchange
variable {α β : Type}

def Inside (x : Exchange α) : Prop := ∀ e ∈ x.events, e.opens = false

theorem inside_step {e : Event} (h : e.opens = false) (refusal : Option String) :
    (step e refusal).Inside := by
  cases refusal <;> simpa [Inside, step, fail] using h

theorem inside_andThen {x : Exchange α} {f : α → Exchange β} (hx : x.Inside)
    (hf : ∀ a, (f a).Inside) : (x.andThen f).Inside := by
  unfold andThen
  split
  · exact hx
  · next a _ =>
    intro e he
    cases List.mem_append.mp he with
    | inl first => exact hx e first
    | inr later => exact hf a e later

theorem inside_closing (b : Behaviour) {x : Exchange α} (h : x.Inside) : (x.closing b).Inside := by
  have closed : ∀ e ∈ x.events ++ [.close], e.opens = false := by
    intro e he
    cases List.mem_append.mp he with
    | inl before => exact h e before
    | inr last =>
      rw [List.mem_singleton.mp last]
      rfl
  unfold closing
  split <;> exact closed

theorem inside_put (refusal : Option String) (u : Upload) : (put refusal u).Inside := by
  unfold put
  dsimp only
  split
  · exact inside_step rfl _
  · exact inside_step rfl _
  · simp [Inside, fail]

theorem inside_putEach (refusals : List (Option String)) (us : List Upload) :
    (putEach refusals us).Inside := by
  induction us generalizing refusals with
  | nil => simp [Inside, putEach]
  | cons u us ih => exact inside_andThen (inside_put _ u) fun _ => ih _

theorem inside_perform (b : Behaviour) (c : Command) : (perform b c).Inside :=
  inside_andThen (inside_putEach _ c.uploads) fun _ => inside_step (e := .run ..) rfl b.runError

theorem events_connect_andThen (b : Behaviour) (a : Access) {f : Unit → Exchange α}
    (h : (f ()).Inside) :
    ∃ inside, ((connect b a).andThen f).events = a.event :: inside ∧
      ∀ e ∈ inside, e.opens = false := by
  unfold connect step
  cases b.connectError with
  | some why => exact ⟨[], rfl, by simp⟩
  | none => exact ⟨(f ()).events, rfl, h⟩

theorem events_complete (b : Behaviour) (a : Access) (c : Command) :
    ∃ inside, (complete b a c).events = a.event :: inside ∧ ∀ e ∈ inside, e.opens = false :=
  events_connect_andThen b a (inside_closing b (inside_perform b c))

theorem inside_launched (b : Behaviour) (c : Command) : (launched b c).Inside := by
  have started : ((putAll b c.uploads).andThen fun _ => start b c).Inside :=
    inside_andThen (inside_putEach _ c.uploads) fun _ => inside_step rfl b.runError
  unfold launched
  dsimp only
  split
  · exact started
  · exact inside_closing b started

theorem events_launch (b : Behaviour) (a : Access) (c : Command) :
    ∃ inside, (launch b a c).events = a.event :: inside ∧ ∀ e ∈ inside, e.opens = false :=
  events_connect_andThen b a (inside_launched b c)

theorem outcome_andThen {x : Exchange α} {f : α → Exchange β} {b : β}
    (h : (x.andThen f).outcome = .ok b) : ∃ a, x.outcome = .ok a ∧ (f a).outcome = .ok b := by
  unfold andThen at h
  split at h
  · cases h
  · next a first => exact ⟨a, first, h⟩

theorem outcome_closing {b : Behaviour} {x : Exchange α} {a : α}
    (h : (x.closing b).outcome = .ok a) : x.outcome = .ok a := by
  unfold closing at h
  split at h
  · cases h
  · exact h

theorem answer_of_complete {b : Behaviour} {a : Access} {c : Command} {answer : Answer}
    (h : (complete b a c).outcome = .ok answer) : answer = b.answer := by
  obtain ⟨_, -, used⟩ := outcome_andThen h
  obtain ⟨_, -, ran⟩ := outcome_andThen (outcome_closing used)
  unfold run step at ran
  split at ran
  · cases ran
  · exact (Except.ok.inj ran).symm

theorem close_mem_closing (b : Behaviour) (x : Exchange α) : .close ∈ (x.closing b).events := by
  unfold closing
  split <;> simp

theorem close_mem_complete (b : Behaviour) (a : Access) (c : Command) :
    b.connectError.isSome ∨ .close ∈ (complete b a c).events := by
  unfold complete connect step
  cases b.connectError with
  | some why => exact .inl rfl
  | none => exact .inr (List.mem_append_right _ (close_mem_closing b _))

theorem close_mem_launch (b : Behaviour) (a : Access) (c : Command) :
    b.connectError.isSome ∨ (launch b a c).outcome.isOk ∨ .close ∈ (launch b a c).events := by
  unfold launch connect step
  cases b.connectError with
  | some why => exact .inl rfl
  | none =>
    refine .inr ?_
    dsimp only [andThen, launched]
    split
    · next started =>
      rw [started]
      exact .inl rfl
    · exact .inr (List.mem_append_right _ (close_mem_closing b _))

theorem used_connect_iff {b : Behaviour} {a : Access} {f : Unit → Exchange α} (inside : (f ()).Inside)
    (acts : (f ()).events ≠ []) :
    (∃ e ∈ ((connect b a).andThen f).events, e.opens = false) ↔ b.connectError = none := by
  unfold connect step
  cases b.connectError with
  | some why =>
    refine iff_of_false ?_ (Option.some_ne_none why)
    rintro ⟨e, he, used⟩
    obtain rfl : e = a.event := List.mem_singleton.mp he
    cases used
  | none =>
    obtain ⟨e, he⟩ := List.exists_mem_of_ne_nil _ acts
    exact iff_of_true ⟨e, List.mem_append_right _ he, inside e he⟩ rfl

theorem used_complete_iff {b : Behaviour} {a : Access} {c : Command} :
    (∃ e ∈ (complete b a c).events, e.opens = false) ↔ b.connectError = none :=
  used_connect_iff (inside_closing b (inside_perform b c))
    (List.ne_nil_of_mem (close_mem_closing b _))

theorem used_launch_iff {b : Behaviour} {a : Access} {c : Command} :
    (∃ e ∈ (launch b a c).events, e.opens = false) ↔ b.connectError = none := by
  refine used_connect_iff (inside_launched b c) ?_
  unfold launched
  dsimp only
  split
  · next started =>
    obtain ⟨_, put, -⟩ := outcome_andThen started
    unfold andThen start step
    rw [put]
    cases b.runError <;> simp [fail]
  · exact List.ne_nil_of_mem (close_mem_closing b _)

theorem closed_complete {b : Behaviour} {a : Access} {c : Command} {e : Event}
    (he : e ∈ (complete b a c).events) (used : e.opens = false) :
    .close ∈ (complete b a c).events := by
  have accepted := used_complete_iff.mp ⟨e, he, used⟩
  exact (close_mem_complete b a c).resolve_left (by simp [accepted])

theorem closed_launch {b : Behaviour} {a : Access} {c : Command} {why : String} {e : Event}
    (failed : (launch b a c).outcome = .error why) (he : e ∈ (launch b a c).events)
    (used : e.opens = false) : .close ∈ (launch b a c).events := by
  have accepted := used_launch_iff.mp ⟨e, he, used⟩
  refine ((close_mem_launch b a c).resolve_left (by simp [accepted])).resolve_left fun started => ?_
  rw [failed] at started
  cases started

end Exchange
end Flotilla.Host
