import Flotilla.Executor.Handle
import Flotilla.Log
import Flotilla.Report.Outcome

namespace Flotilla

structure Report where
  stages : Table String (Table String Report.Outcome)
  deriving DecidableEq, Repr

namespace Report
open Executor

def empty : Report := ⟨.empty⟩

instance : Inhabited Report := ⟨empty⟩

def entries (r : Report) (stage : String) : Table String Outcome :=
  (r.stages.get? stage).getD .empty

/-- Changes the entries of a stage, which is there from then on. -/
def update (r : Report) (stage : String) (f : Table String Outcome → Table String Outcome) : Report :=
  ⟨r.stages.put stage (f (r.entries stage))⟩

theorem entries_update (r : Report) (stage : String)
    (f : Table String Outcome → Table String Outcome) :
    (r.update stage f).entries stage = f (r.entries stage) := by
  simp [update, entries, Table.get?_put]

theorem update_update (r : Report) (stage : String)
    (f g : Table String Outcome → Table String Outcome) :
    (r.update stage f).update stage g = r.update stage fun es => g (f es) := by
  rw [update, entries_update]
  apply congrArg Report.mk
  apply Table.ext_get?
  · grind [update, Table.keys_put]
  · intro k
    grind [update, Table.get?_put]

def sortKeys (keys : List String) : List String := keys.mergeSort fun a b => decide (a ≤ b)

def record (r : Report) (stage : String) (results : Results) : Report :=
  r.update stage fun es => (sortKeys results.keys).foldl (fun es key =>
    match results.get? key with
    | some result => es.put key (.ofResult stage result)
    | none => es) es

/-- A task as a handle with these failures has it: as failed, or else as dispatched. -/
def standing (stage : String) (failed : Results) (t : Task) : Outcome :=
  match failed.get? t.key with
  | some result => .ofResult stage result
  | none => .dispatched stage t

def recordDispatch (r : Report) (stage : String) (h : Handle γ) : Report :=
  let failed := h.failed
  r.update stage fun es => h.tasks.foldl (fun es t => es.put t.key (standing stage failed t)) es

def recordSkipped (r : Report) (stage : String) (keys : List String) (reason : Option String) :
    Report :=
  r.update stage fun es => keys.foldl (fun es key => es.put key (.skipped stage key reason)) es

/-- Replaces an outcome that was only dispatched by how the task ended. -/
def settle (stage : String) (es : Table String Outcome) (e : String × Result) :
    Table String Outcome :=
  match es.get? e.1 with
  | some o => if o.status = .dispatched then es.put e.1 (.ofResult stage e.2) else es
  | none => es

theorem get?_settle (stage : String) (es : Table String Outcome) (e : String × Result)
    (k : String) :
    (settle stage es e).get? k =
      if k = e.1 ∧ (es.get? k).any (·.status = .dispatched) then some (.ofResult stage e.2)
      else es.get? k := by
  unfold settle
  grind [Table.get?_put]

theorem keys_settle (stage : String) (es : Table String Outcome) (e : String × Result) :
    (settle stage es e).keys = es.keys := by
  unfold settle
  grind [Table.keys_put, Table.mem_keys_iff]

def updateFrom (r : Report) (stage : String) (results : Results) : Report :=
  r.update stage fun es => results.entries.foldl (settle stage) es

def outcomes (r : Report) : List Outcome := r.stages.values.flatMap Table.values

def outcomesOf (r : Report) : Option String → List Outcome
  | some stage => (r.entries stage).values
  | none => r.outcomes

def failuresOf (r : Report) (stage : Option String) : List Outcome :=
  (r.outcomesOf stage).filter (·.status = .failed)

def failures (r : Report) : List Outcome := r.failuresOf none

def failedKeysOf (r : Report) (stage : Option String) : List String :=
  sortKeys ((r.failuresOf stage).map (·.key)).eraseDups

def failedKeys (r : Report) : List String := r.failedKeysOf none

def isOk (r : Report) : Bool := r.failures.isEmpty

def failureText (r : Report) : String :=
  s!"{r.failures.length} task(s) failed on " ++ Text.joinWith ", " r.failedKeys

/-- The failures of a report as an error, for a caller who asks for one. -/
structure Unsuccessful where
  message : String
  failures : List Outcome
  deriving DecidableEq, Repr

def raiseFailures (r : Report) : Except Unsuccessful Unit :=
  let failures := r.failures
  if failures.isEmpty then .ok () else .error ⟨r.failureText, failures⟩

/-- Statuses in the order in which they first come up, each with its count. -/
def counts (os : List Outcome) : Table Status Nat :=
  os.foldl (fun t o => t.put o.status ((t.get? o.status).getD 0 + 1)) .empty

def countText (stage : String) (os : List Outcome) : String :=
  stage ++ ": " ++ Text.joinWith ", " ((counts os).entries.map fun e => s!"{e.2} {e.1.name}")

def failureLine (stage : String) (o : Outcome) : Log.Record :=
  Log.error (s!"{stage}: {o.key} failed (rc: {codeText o.returnCode}): " ++ o.error.getD "None")

def summary (r : Report) : List Log.Record :=
  r.stages.entries.flatMap fun e =>
    Log.info (countText e.1 e.2.values) ::
      (e.2.values.filter (·.status = .failed)).map (failureLine e.1)

end Report
end Flotilla
