import Flotilla.Proofs.Lifecycle.Step

/-! Histories of a controller: its calls in any order, also those that fail, while started commands
end when they like and hosts change their minds. What a session has to end while a call is busy is
part of the session. A run is a call that takes its steps in turn, until one of them fails. -/
namespace Flotilla.Lifecycle
open Executor

inductive Call
  | step (k : Step)
  | run
  deriving DecidableEq, Repr

/-- What comes next: a call, or something that happens between calls. -/
inductive Move
  | call (k : Call)
  | ended (which : Running → Bool)
  | hostsBecame (hosts : Host.Script)

structure Entry where
  step : Step
  before : Progress
  after : Progress
  outcome : Except Fault PUnit

def Entry.opened (e : Entry) : List Host.Channel :=
  openings (e.after.session.trace.drop e.before.session.trace.length)

/-- The transition was made: it returned, and a connection was opened, or tried to be, for each of its
tasks. -/
def Entry.Does (e : Entry) (c : Controller) (t : Transition) : Prop :=
  e.step = .transition t ∧ e.outcome = .ok ⟨⟩ ∧ e.opened = c.channels t

/-- Nothing was opened, and if it was a transition, it was refused. -/
def Entry.IsIdle (e : Entry) : Prop :=
  e.opened = [] ∧ ∀ t, e.step = .transition t → ∃ why, e.outcome = .error (.disorder why)

def Progress.new (s : Session) (report : Report) : Progress := { session := s, report }

namespace Controller

def answer (c : Controller) : Call → Act PUnit
  | .step k => c.perform k
  | .run => do let _ ← c.run

def steps (c : Controller) : Call → List Step
  | .step k => [k]
  | .run => [.transition .stop] ++ (if c.reloads then [.transition .reloadUnits] else []) ++
      [.transition .startHelpers, .transition .startDaemons]

def performAll (c : Controller) : List Step → Act PUnit
  | [] => return ⟨⟩
  | k :: r => do
    c.perform k
    c.performAll r

theorem answer_eq (c : Controller) (k : Call) : c.answer k = c.performAll (c.steps k) := by
  cases k with
  | step k => simp [answer, steps, performAll]
  | run =>
    have looked : (do let _ ← get; return ⟨⟩ : Act PUnit) = return ⟨⟩ := rfl
    cases reloads : c.reloads <;>
      simp only [answer, run, steps, performAll, perform, reloads, looked, bind_assoc, pure_bind,
        Bool.false_eq_true, if_true, if_false, List.cons_append, List.nil_append, List.append_nil]

def entry (c : Controller) (k : Step) (p : Progress) : Entry :=
  let (x,p') := exec (c.perform k) p
  ⟨k, p, p', x⟩

/-- A step is idle and leaves phase and helpers as they are, or it is a transition that is made. -/
theorem entry_cases (c : Controller) (k : Step) (p : Progress) :
    let e := c.entry k p
    (e.IsIdle ∧ (∀ t, k = .transition t → ¬ c.Admits t p) ∧ e.after.phase = p.phase ∧
      e.after.helpers = p.helpers ∧ p.session.Opens e.after.session []) ∨
    ∃ t, k = .transition t ∧ c.Admits t p ∧ c.Made t p e.after e.outcome ∧
      e.opened = c.channels t := by
  unfold entry
  by_cases moves : ∃ t, k = .transition t
  · obtain ⟨t, rfl⟩ := moves
    by_cases admitted : c.Admits t p
    · obtain ⟨x, p', taken, made⟩ := c.exec_transition admitted
      obtain ⟨said, grows⟩ := made.opens
      rw [taken]
      exact .inr ⟨t, rfl, admitted, made, grows.openings_drop⟩
    · obtain ⟨why, taken⟩ := c.exec_refused admitted
      rw [taken]
      refine .inl ⟨⟨?_, fun _ _ => ⟨why, rfl⟩⟩, ?_, rfl, rfl, .refl _⟩
      · simp [Entry.opened, openings]
      · rintro _ ⟨⟩
        exact admitted
  · obtain ⟨p', taken, opens, phase, helpers⟩ := c.exec_watch (fun t h => moves ⟨t, h⟩) p
    obtain ⟨said, grows⟩ := opens
    rw [taken]
    exact .inl ⟨⟨grows.openings_drop, fun t h => absurd ⟨t, h⟩ moves⟩,
      fun t h => absurd ⟨t, h⟩ moves, phase, helpers, said, grows⟩

def entries (c : Controller) : List Step → Progress → List Entry
  | [], _ => []
  | k :: r, p =>
    let e := c.entry k p
    e :: match e.outcome with
      | .ok _ => c.entries r e.after
      | .error _ => []

def move (c : Controller) (p : Progress) : Move → Progress
  | .call k => (exec (c.answer k) p).2
  | .ended which => { p with session := finishAll p.session which }
  | .hostsBecame hosts => { p with session := { p.session with hosts } }

def after (c : Controller) (moves : List Move) (p : Progress) : Progress := moves.foldl c.move p

def history (c : Controller) : List Move → Progress → List Entry
  | [], _ => []
  | .call k :: r, p => c.entries (c.steps k) p ++ c.history r (c.move p (.call k))
  | m :: r, p => c.history r (c.move p m)

section
variable (c : Controller) {I : List Entry → Progress → Prop}
  (step : ∀ {past p} (k : Step), I past p → I (past ++ [c.entry k p]) (c.entry k p).after)
  (aside : ∀ {past p s}, p.session.Lasts s → I past p → I past { p with session := s })
include step

theorem entries_induction (ks : List Step) (past : List Entry) {p : Progress} (h : I past p) :
    I (past ++ c.entries ks p) (exec (c.performAll ks) p).2 := by
  induction ks generalizing past p with
  | nil => simpa [entries, performAll] using h
  | cons k r ih =>
    have first := step k h
    rw [performAll, exec_bind, entries]
    unfold entry at first ⊢
    generalize exec (c.perform k) p = taken at first ⊢
    -- The first step that fails is the last one taken.
    rcases taken with ⟨_ | _, p'⟩
    · exact first
    · simpa using ih _ first

include aside

theorem history_induction_from (moves : List Move) {past : List Entry} {p : Progress}
    (h : I past p) : I (past ++ c.history moves p) (c.after moves p) := by
  induction moves generalizing past p with
  | nil => simpa [history, after] using h
  | cons m r ih =>
    cases m with
    | call k =>
      have called := c.entries_induction step (c.steps k) past h
      rw [← answer_eq] at called
      rw [history, ← List.append_assoc]
      exact ih called
    | ended which =>
      have ended := finishAll_grows p.session which
      exact ih (aside ⟨ended.trace, ended.handles⟩ h)
    | hostsBecame hosts =>
      exact ih (aside ⟨⟨[], by simp, rfl⟩, fun {_ h} found => ⟨h, found, .refl h⟩⟩ h)

/-- What each step preserves, and what does not depend on what is aside, holds of a whole history. -/
theorem history_induction (moves : List Move) {p : Progress} (h : I [] p) :
    I (c.history moves p) (c.after moves p) :=
  c.history_induction_from (I := I) step aside moves h

theorem history_split {moves : List Move} {p : Progress} (h : I [] p) {past future : List Entry}
    {e : Entry} (happened : c.history moves p = past ++ e :: future) :
    I past e.before ∧ e = c.entry e.step e.before := by
  -- Besides what holds now, keep what held when each earlier step was taken.
  have all := c.history_induction (I := fun past p => I past p ∧ ∀ a e b, past = a ++ e :: b →
    I a e.before ∧ e = c.entry e.step e.before) ?_ ?_ moves (p := p) ⟨h, by simp⟩
  · exact all.2 past e future happened
  · rintro past p k ⟨now, earlier⟩
    refine ⟨step k now, ?_⟩
    intro a e b split
    rcases List.eq_nil_or_concat b with rfl | ⟨b', last, rfl⟩
    · obtain ⟨rfl, same⟩ := List.append_inj' split rfl
      obtain rfl : c.entry k p = e := by simpa using same
      exact ⟨now, rfl⟩
    · rw [List.concat_eq_append, ← List.cons_append, ← List.append_assoc] at split
      exact earlier a e b' (List.append_inj' split rfl).1
  · exact fun keeps ⟨now, earlier⟩ => ⟨aside keeps now, earlier⟩

end

theorem after_induction (c : Controller) {I : Progress → Prop}
    (step : ∀ {p} (k : Step), I p → I (exec (c.perform k) p).2)
    (ended : ∀ {p} which, I p → I { p with session := finishAll p.session which })
    (became : ∀ {p} hosts, I p → I { p with session := { p.session with hosts } })
    (moves : List Move) {p : Progress} (h : I p) : I (c.after moves p) := by
  refine List.foldlRecOn moves c.move h fun q h m _ => ?_
  cases m with
  | call k =>
    rw [move, answer_eq]
    exact c.entries_induction (I := fun _ => I) step (c.steps k) [] h
  | ended which => exact ended which h
  | hostsBecame hosts => exact became hosts h

end Controller
end Flotilla.Lifecycle
