import Flotilla.Executor.Task

/-! The handle of a fan-out that was started and not waited for. Results are written once: what
comes later for a key is dropped. -/
namespace Flotilla.Executor

structure Handle (γ : Type) where
  tasks : List Task
  issued : List String := []
  issueFailures : List String := []
  results : Results := .empty
  connections : Table String γ := .empty
  deriving Repr

namespace Handle
variable {γ : Type}

def knows (h : Handle γ) (key : String) : Bool := h.tasks.any (·.key == key)

def settle (h : Handle γ) (key : String) : Except Fault Unit × Handle γ :=
  if h.knows key then (.ok (), { h with issued := key :: h.issued })
  else (.error (.unknownKey key), h)

@[simp] theorem settle_tasks (h : Handle γ) (key : String) : (h.settle key).2.tasks = h.tasks := by
  unfold settle
  split <;> rfl

@[simp] theorem settle_results (h : Handle γ) (key : String) :
    (h.settle key).2.results = h.results := by
  unfold settle
  split <;> rfl

@[simp] theorem settle_issueFailures (h : Handle γ) (key : String) :
    (h.settle key).2.issueFailures = h.issueFailures := by
  unfold settle
  split <;> rfl

@[simp] theorem settle_connections (h : Handle γ) (key : String) :
    (h.settle key).2.connections = h.connections := by
  unfold settle
  split <;> rfl

/-- The command has been handed to its connection. A later connection replaces an earlier one. -/
def markIssued (h : Handle γ) (key : String) (connection : Option γ) :
    Except Fault Unit × Handle γ :=
  match connection with
  | some c => { h with connections := h.connections.put key c }.settle key
  | none => h.settle key

def complete (h : Handle γ) (r : Result) : Handle γ :=
  { h with results := h.results.putNew r.key r }

def markIssueFailed (h : Handle γ) (r : Result) : Except Fault Unit × Handle γ :=
  { h.complete r with issueFailures := r.key :: h.issueFailures }.settle r.key

@[simp] theorem markIssued_tasks (h : Handle γ) (key : String) (connection : Option γ) :
    (h.markIssued key connection).2.tasks = h.tasks := by
  cases connection <;> exact settle_tasks _ _

@[simp] theorem markIssued_results (h : Handle γ) (key : String) (connection : Option γ) :
    (h.markIssued key connection).2.results = h.results := by
  cases connection <;> exact settle_results _ _

@[simp] theorem markIssueFailed_tasks (h : Handle γ) (r : Result) :
    (h.markIssueFailed r).2.tasks = h.tasks := settle_tasks _ _

@[simp] theorem markIssueFailed_results (h : Handle γ) (r : Result) :
    (h.markIssueFailed r).2.results = h.results.putNew r.key r := settle_results _ _

@[simp] theorem markIssued_issueFailures (h : Handle γ) (key : String) (connection : Option γ) :
    (h.markIssued key connection).2.issueFailures = h.issueFailures := by
  cases connection <;> exact settle_issueFailures _ _

@[simp] theorem markIssueFailed_issueFailures (h : Handle γ) (r : Result) :
    (h.markIssueFailed r).2.issueFailures = r.key :: h.issueFailures := settle_issueFailures _ _

@[simp] theorem markIssued_connections (h : Handle γ) (key : String) (connection : Option γ) :
    (h.markIssued key connection).2.connections =
      h.connections.putAll (connection.toList.map (key, ·)) := by
  cases connection <;> exact settle_connections _ _

@[simp] theorem markIssueFailed_connections (h : Handle γ) (r : Result) :
    (h.markIssueFailed r).2.connections = h.connections := settle_connections _ _

def isIssued (h : Handle γ) (key : String) : Bool := h.issued.contains key

theorem isIssued_settle_iff {h : Handle γ} {k : String} (known : h.knows k) (key : String) :
    (h.settle key).2.isIssued k ↔ h.isIssued k ∨ k = key := by
  unfold settle isIssued
  split <;> grind

theorem isIssued_markIssued_iff {h : Handle γ} {k : String} (known : h.knows k) (key : String)
    (connection : Option γ) :
    (h.markIssued key connection).2.isIssued k ↔ h.isIssued k ∨ k = key := by
  cases connection with
  | none => exact isIssued_settle_iff known key
  | some c =>
    exact isIssued_settle_iff (h := { h with connections := h.connections.put key c }) known key

theorem isIssued_markIssueFailed_iff {h : Handle γ} {k : String} (known : h.knows k) (r : Result) :
    (h.markIssueFailed r).2.isIssued k ↔ h.isIssued k ∨ k = r.key :=
  isIssued_settle_iff (h := { h.complete r with issueFailures := r.key :: h.issueFailures }) known
    r.key

def allIssued (h : Handle γ) : Bool := h.tasks.all fun t => h.isIssued t.key

def dispatched (h : Handle γ) : List String :=
  (h.tasks.filter fun t => h.isIssued t.key && !h.issueFailures.contains t.key).map (·.key)

def failed (h : Handle γ) : Results := h.results.filter fun _ r => !r.isOk

def closedText : String := "channel closed"

/-- Gives up on what is unfinished. The connections handed over so far are to be closed. -/
def close (h : Handle γ) : Handle γ × List γ :=
  ({ h with results := h.tasks.foldl (fun rs t => rs.putNew t.key (.failed t closedText)) h.results },
   h.connections.values)

end Handle
end Flotilla.Executor
