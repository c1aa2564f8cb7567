import Flotilla.Executor.Task
import Flotilla.Text.Blank

namespace Flotilla.Report

inductive Status
  | ok
  | failed
  | dispatched
  | skipped
  deriving DecidableEq, Repr

def Status.name : Status → String
  | ok => "ok"
  | failed => "failed"
  | dispatched => "dispatched"
  | skipped => "skipped"

structure Outcome where
  stage : String
  key : String
  host : Option String
  status : Status
  returnCode : Option Int
  error : Option String
  deriving DecidableEq, Repr

namespace Outcome

/-- Why a result is a failure: its error, else what the command complained about, else its code. -/
def explain (r : Executor.Result) : Option String :=
  if r.isOk then r.error else
  match r.error with
  | some e => some e
  | none =>
    let said := Text.trim (r.stderr.getD "")
    some (if said.isEmpty then "exited with " ++ Executor.codeText r.returnCode else said)

def ofResult (stage : String) (r : Executor.Result) : Outcome :=
  ⟨stage, r.key, r.host, if r.isOk then .ok else .failed, r.returnCode, explain r⟩

def dispatched (stage : String) (t : Executor.Task) : Outcome :=
  ⟨stage, t.key, some t.host, .dispatched, none, none⟩

def skipped (stage key : String) (reason : Option String) : Outcome :=
  ⟨stage, key, none, .skipped, none, reason⟩

end Outcome
end Flotilla.Report
