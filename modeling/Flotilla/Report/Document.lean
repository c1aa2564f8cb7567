import Flotilla.Json.Printer
import Flotilla.Report.Basic

namespace Flotilla.Report

def optionalText : Option String → Value
  | some s => .text s
  | none => .null

def optionalCode : Option Int → Value
  | some c => .num (.int c)
  | none => .null

def Outcome.document (o : Outcome) : Value :=
  .map [("stage", .text o.stage), ("key", .text o.key), ("host", optionalText o.host),
    ("status", .text o.status.name), ("return_code", optionalCode o.returnCode),
    ("error", optionalText o.error)]

def document (r : Report) : Value :=
  .map (r.stages.entries.map fun e => (e.1, .list (e.2.values.map Outcome.document)))

def text (r : Report) : String := Json.printBlock r.document

end Flotilla.Report
