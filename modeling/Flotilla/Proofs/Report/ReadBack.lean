import Flotilla.Proofs.Json.ReadBack
import Flotilla.Report.Document
import Mathlib.Data.List.Basic

namespace Flotilla.Report

def textOf? : Value → Option (Option String)
  | .null => some none
  | .text s => some (some s)
  | _ => none

def codeOf? : Value → Option (Option Int)
  | .null => some none
  | .num (.int c) => some (some c)
  | _ => none

def Status.ofName? (name : String) : Option Status :=
  [Status.ok, .failed, .dispatched, .skipped].find? (·.name = name)

/-- An outcome has these six fields in this order, and no others. -/
def Outcome.ofDocument? : Value → Option Outcome
  | .map [("stage", .text stage), ("key", .text key), ("host", host), ("status", .text status),
      ("return_code", code), ("error", error)] => do
    some ⟨stage, key, ← textOf? host, ← Status.ofName? status, ← codeOf? code, ← textOf? error⟩
  | _ => none

def listing? : Value → Option (List (String × List Outcome))
  | .map stages => stages.mapM fun stage => match stage with
    | (name, .list outcomes) => (outcomes.mapM Outcome.ofDocument?).map (name, ·)
    | _ => none
  | _ => none

def listing (r : Report) : List (String × List Outcome) :=
  r.stages.keys.map fun stage => (stage, r.outcomesOf (some stage))

theorem textOf?_optionalText (s : Option String) : textOf? (optionalText s) = some s := by
  cases s <;> rfl

theorem codeOf?_optionalCode (c : Option Int) : codeOf? (optionalCode c) = some c := by
  cases c <;> rfl

theorem Status.ofName?_name (s : Status) : Status.ofName? s.name = some s := by
  cases s <;> decide

theorem Outcome.ofDocument?_document (o : Outcome) : Outcome.ofDocument? o.document = some o := by
  simp [Outcome.document, Outcome.ofDocument?, textOf?_optionalText, codeOf?_optionalCode,
    Status.ofName?_name]

theorem listing_eq (r : Report) : r.listing = r.stages.entries.map fun e => (e.1, e.2.values) := by
  rw [listing, Table.keys, List.map_map]
  refine List.map_congr_left fun e member => ?_
  have found : r.stages.get? e.1 = some e.2 := (Table.lookup_eq_some_iff r.stages.nodup).mpr member
  simp [outcomesOf, entries, found]

theorem listing?_document (r : Report) : listing? r.document = some r.listing := by
  have each (os : List Outcome) : (os.map Outcome.document).mapM Outcome.ofDocument? = some os := by
    have back : Outcome.ofDocument? ∘ Outcome.document = pure := funext Outcome.ofDocument?_document
    rw [List.mapM_map, back]
    simpa using List.mapM_pure (m := Option) (l := os) (f := id)
  rw [listing_eq, document, listing?, List.mapM_map]
  simp only [Function.comp_def, each, Option.map_some]
  exact List.mapM_pure

theorem isExact_optionalText (s : Option String) : Json.IsExact (optionalText s) := by
  cases s with
  | none => exact .null
  | some s => exact .text s

theorem isExact_optionalCode (c : Option Int) : Json.IsExact (optionalCode c) := by
  cases c with
  | none => exact .null
  | some c => exact .int c

theorem Outcome.isExact_document (o : Outcome) : Json.IsExact o.document := by
  refine .map (by simp) ?_
  simp only [List.forall_mem_cons]
  exact ⟨.text _, .text _, isExact_optionalText _, .text _, isExact_optionalCode _,
    isExact_optionalText _, nofun⟩

theorem isExact_document (r : Report) : Json.IsExact r.document := by
  refine .map ?_ ?_
  · simpa [Function.comp_def] using r.stages.nodup
  · refine List.forall_mem_map.mpr fun e _ => .list ?_
    exact List.forall_mem_map.mpr fun o _ => o.isExact_document

/-- What is written of a report is read back: its stages in order, and of each the outcomes in order, with
all their fields. So reports that differ in this are never written as the same text. -/
theorem text_reads_back (r : Report) :
    Json.read r.text = some r.document ∧ listing? r.document = some r.listing ∧
      ∀ r' : Report, r'.text = r.text → r'.listing = r.listing := by
  have read (r : Report) : Json.read r.text = some r.document := Json.read_printBlock (isExact_document r)
  refine ⟨read r, listing?_document r, fun r' same => ?_⟩
  have documents : r'.document = r.document := by
    rw [← Option.some_inj, ← read r', same, read r]
  rw [← Option.some_inj, ← listing?_document r', documents, listing?_document r]

end Flotilla.Report
