import Flotilla.Proofs.Lifecycle.Restart

/-! Calls out of order. A call is refused exactly if the phase does not allow it, and has then done
nothing at all. One that is let in may fail on its hosts, but is never found out of order later on:
a run is refused at its start or not at all. -/
namespace Flotilla.Lifecycle.Controller
open Executor

/-- Whether a call may be made in a phase. A run is made where its first step is, and nothing keeps the
controller from looking after its commands or giving them up. -/
def isInOrder (c : Controller) (phase : Phase) : Call → Bool
  | .step (.transition t) => (c.sources t).contains phase
  | .run => (c.sources .stop).contains phase
  | .step _ => true

theorem in_order_of_admits (c : Controller) {t : Transition} {p : Progress} (h : c.Admits t p)
    (why : Disorder) : (exec (c.perform (.transition t)) p).1 ≠ .error (.disorder why) :=
  fun failed => not_isUnwritten_disorder why (c.fault_of_admits h failed)

theorem in_order_of_watch (c : Controller) {k : Step} (h : ∀ t, k ≠ .transition t) (p : Progress)
    (why : Disorder) : (exec (c.perform k) p).1 ≠ .error (.disorder why) := by
  obtain ⟨q, looked, -⟩ := c.exec_watch h p
  simp [looked]

theorem fault_of_leads (c : Controller) {ts : List Transition} {p : Progress}
    (leads : c.Leads p.phase ts) (issued : p.phase = .helpersStarted → helpersIssued p) {f : Fault}
    (failed : (exec (c.performAll (ts.map Step.transition)) p).1 = .error f) : IsUnwritten f := by
  induction ts generalizing p with
  | nil => cases failed
  | cons t r ih =>
    have admitted := leads.admits issued
    rw [List.map_cons, performAll] at failed
    rcases fault_of_exec_bind failed with first | ⟨⟨⟩, q, taken, later⟩
    · exact c.fault_of_admits admitted first
    · obtain ⟨x, q', taken', made⟩ := c.exec_transition admitted
      obtain ⟨rfl, rfl⟩ := Prod.mk.inj (taken.symm.trans taken')
      have phase : q.phase = t.rest := made.phase
      exact ih (phase ▸ leads.2) (fun helped => helpersIssued_of_made made (phase ▸ helped)) later

theorem performAll_steady (c : Controller) (ts : List Transition) (p : Progress) :
    p.session.Steady (exec (c.performAll (ts.map Step.transition)) p).2.session := by
  induction ts generalizing p with
  | nil => exact .refl _
  | cons t r ih =>
    have first := c.perform_steady t p
    rw [List.map_cons, performAll, exec_bind]
    rcases taken : exec (c.perform (.transition t)) p with ⟨f | u, q⟩ <;> rw [taken] at first
    · exact first
    · exact first.trans (ih q)

theorem in_order_of_leads (c : Controller) {ts : List Transition} {p : Progress}
    (leads : c.Leads p.phase ts) (issued : p.phase = .helpersStarted → helpersIssued p)
    (why : Disorder) :
    (exec (c.performAll (ts.map Step.transition)) p).1 ≠ .error (.disorder why) :=
  fun failed => not_isUnwritten_disorder why (c.fault_of_leads leads issued failed)

theorem exec_performAll_refused (c : Controller) {t : Transition} {p : Progress}
    (h : p.phase ∉ c.sources t) (ks : List Step) :
    ∃ why, exec (c.performAll (.transition t :: ks)) p = (.error (.disorder why), p) := by
  obtain ⟨why, refused⟩ := c.exec_refused (t := t) fun admitted => h admitted.1
  exact ⟨why, exec_bind_error refused _⟩

theorem performAll_singleton (c : Controller) (k : Step) : c.performAll [k] = c.perform k := by
  simp [performAll]

/-- Whatever has been called before, a call is refused exactly if the phase does not allow it, and a
refused call leaves everything as it was: phase, report, handles and their results, and all that has
passed over connections. -/
theorem refused_or_in_order (c : Controller) (s : Session) (report : Report) (moves : List Move)
    (k : Call) :
    let p := c.after moves (.new s report)
    if c.isInOrder p.phase k then ∀ why, (exec (c.answer k) p).1 ≠ .error (.disorder why)
    else ∃ why, exec (c.answer k) p = (.error (.disorder why), p) := by
  intro p
  have issued : p.phase = .helpersStarted → helpersIssued p :=
    (c.upheld_history moves s report).helpersIssued
  rw [answer_eq]
  split
  · next allowed =>
    intro why
    cases k with
    | step k =>
      rw [steps, performAll_singleton]
      by_cases moves : ∃ t, k = .transition t
      · obtain ⟨t, rfl⟩ := moves
        have source : p.phase ∈ c.sources t := by simpa [isInOrder] using allowed
        refine c.in_order_of_admits ⟨source, ?_⟩ why
        rintro rfl
        exact issued (List.mem_singleton.mp source)
      · exact c.in_order_of_watch (fun t same => moves ⟨t, same⟩) p why
    | run =>
      have source : p.phase ∈ c.sources .stop := by simpa [isInOrder] using allowed
      have steps : c.steps .run = c.transitions.map Step.transition := by
        unfold steps transitions
        cases c.reloads <;> rfl
      rw [steps]
      exact c.in_order_of_leads (c.leads_transitions source) issued why
  · next refused =>
    cases k with
    | step k =>
      cases k with
      | transition t =>
        exact c.exec_performAll_refused (by simpa [isInOrder] using refused) []
      | _ => exact absurd rfl refused
    | run => exact c.exec_performAll_refused (by simpa [isInOrder] using refused) _

end Flotilla.Lifecycle.Controller
