import Flotilla.Proofs.Report.Sheet

namespace Flotilla.Report
open Executor

structure Alike (r r' : Report) : Prop where
  stages : r.stages.keys = r'.stages.keys
  entries : ∀ stage, (r.entries stage).keys = (r'.entries stage).keys

theorem Alike.refl (r : Report) : r.Alike r := ⟨rfl, fun _ => rfl⟩

theorem Alike.trans {r r' r'' : Report} (a : r.Alike r') (b : r'.Alike r'') : r.Alike r'' :=
  ⟨a.stages.trans b.stages, fun stage => (a.entries stage).trans (b.entries stage)⟩

theorem keys_updateFrom {r : Report} {stage : String} (h : stage ∈ r.stages.keys)
    (results : Results) : (r.updateFrom stage results).stages.keys = r.stages.keys := by
  rw [updateFrom, update, Table.keys_put, if_pos h]

theorem entries_updateFrom (r : Report) (stage : String) (results : Results) (stage' : String) :
    ((r.updateFrom stage results).entries stage').keys = (r.entries stage').keys := by
  by_cases same : stage' = stage
  · rw [same, updateFrom, entries_update]
    exact List.foldlRecOn (motive := fun es => es.keys = (r.entries stage).keys)
      results.entries (settle stage) rfl fun es keys e _ => (keys_settle stage es e).trans keys
  · rw [updateFrom, update, entries, Table.get?_put, if_neg same]
    rfl

theorem alike_updateFrom {r : Report} {stage : String} (h : stage ∈ r.stages.keys)
    (results : Results) : (r.updateFrom stage results).Alike r :=
  ⟨keys_updateFrom h results, entries_updateFrom r stage results⟩

theorem ext_entries {r r' : Report} (stages : r.stages.keys = r'.stages.keys)
    (entries : ∀ stage, r.entries stage = r'.entries stage) : r = r' := by
  suffices same : r.stages = r'.stages by
    cases r
    cases r'
    exact congrArg mk same
  apply Table.ext_get? stages
  intro stage
  have here := entries stage
  unfold Report.entries at here
  by_cases listed : stage ∈ r.stages.keys
  · obtain ⟨es, found⟩ := (r.stages.mem_keys_iff stage).mp listed
    obtain ⟨es', found'⟩ := (r'.stages.mem_keys_iff stage).mp (stages ▸ listed)
    rw [found, found'] at here ⊢
    exact congrArg some here
  · rw [(r.stages.get?_eq_none_iff stage).mpr listed,
      (r'.stages.get?_eq_none_iff stage).mpr (stages ▸ listed)]

def Sheet.layout (s : Sheet) : String × List String := (s.stage, s.rows.map (·.1))

theorem map_stage_of_layout {sheets sheets' : List Sheet}
    (h : sheets.map Sheet.layout = sheets'.map Sheet.layout) :
    sheets.map (·.stage) = sheets'.map (·.stage) := by
  simpa [Sheet.layout, Function.comp_def] using congrArg (List.map Prod.fst) h

theorem keys_enterAll_of_subset {r : Report} {sheets : List Sheet}
    (h : ∀ s ∈ sheets, s.stage ∈ r.stages.keys) : (r.enterAll sheets).stages.keys = r.stages.keys :=
  List.foldlRecOn (motive := fun r' => r'.stages.keys = r.stages.keys) sheets enter rfl
    fun r' keys s hs => by rw [keys_enter, keys, if_pos (h s hs)]

theorem enterAll_of_alike {r : Report} {sheets sheets' : List Sheet}
    (layout : sheets.map Sheet.layout = sheets'.map Sheet.layout)
    (distinct : (sheets.map (·.stage)).Nodup) (alike : r.Alike (empty.enterAll sheets')) :
    r.enterAll sheets = empty.enterAll sheets := by
  have stages := map_stage_of_layout layout
  have distinct' : (sheets'.map (·.stage)).Nodup := stages ▸ distinct
  have keys : r.stages.keys = sheets.map (·.stage) := by
    rw [alike.stages, stages, keys_enterAll_empty distinct']
  apply ext_entries
  · rw [keys_enterAll_empty distinct,
      keys_enterAll_of_subset fun s hs => keys ▸ List.mem_map_of_mem hs, keys]
  · intro stage
    by_cases listed : stage ∈ sheets.map (·.stage)
    · obtain ⟨s, hs, rfl⟩ := List.mem_map.mp listed
      obtain ⟨s', hs', same⟩ : ∃ s' ∈ sheets', s'.layout = s.layout := by
        rw [← List.mem_map, ← layout]
        exact List.mem_map_of_mem hs
      obtain ⟨stage', rows⟩ := Prod.mk.inj same
      have before := alike.entries s'.stage
      rw [entries_enterAll distinct' hs', stage'] at before
      rw [entries_enterAll distinct hs, entries_enterAll distinct hs]
      exact Table.putAll_eq_of_keys rows before
    · have absent : r.stages.get? stage = none :=
        (r.stages.get?_eq_none_iff stage).mpr (keys ▸ listed)
      rw [entries_enterAll_of_notMem listed, entries_enterAll_of_notMem listed, entries, absent]
      rfl

end Flotilla.Report
