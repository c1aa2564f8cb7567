import Flotilla.Proofs.Deploy.Course

namespace Flotilla
namespace Deploy

theorem Step.name_injective : Function.Injective Step.name := by
  intro s s' h
  cases s <;> cases s' <;> first | rfl | (exact absurd h (by decide))

theorem Pipeline.nodup_steps (p : Pipeline) : p.steps.Nodup := by
  have all : Step.all.Nodup := by decide
  exact all.sublist List.filter_sublist

def Step.channel (s : Step) (n : Node) : Host.Channel := ⟨some s.name, some n.name, n.address⟩

namespace Rollout
variable {x : Rollout}

def entry? (x : Rollout) (past : List Step) (s : Step) (n : Node) : Option Report.Outcome :=
  if x.isOut past n then some (.skipped s.name n.name (some reason)) else x.outcome? n s

theorem stages_sheets (past steps : List Step) :
    (x.sheets past steps).map (·.stage) = steps.map Step.name := by
  induction steps generalizing past with
  | nil => rfl
  | cons s r ih => exact congrArg (s.name :: ·) (ih _)

theorem sheet_mem_sheets (past before : List Step) (s : Step) (later : List Step) :
    x.sheet (past ++ before) s ∈ x.sheets past (before ++ s :: later) := by
  induction before generalizing past with
  | nil =>
    rw [List.append_nil]
    exact List.mem_cons_self
  | cons t r ih =>
    have there := ih (past ++ [t])
    rw [List.append_assoc, List.singleton_append] at there
    exact List.mem_cons_of_mem _ there

theorem named_results (past : List Step) (s : Step) : Report.Named (x.results past s) := by
  intro key r found
  rw [results, Executor.results, Table.foldl_put_eq_putAll, Table.get?_eq_some_iff] at found
  cases Table.mem_entries_putAll found with
  | inl none => cases none
  | inr row =>
    obtain ⟨t, -, made⟩ := List.mem_map.mp row
    cases made
    exact Executor.key_result _ _ _ _

theorem named_sheet (past : List Step) (s : Step) :
    ∀ row ∈ (x.sheet past s).rows, row.2.key = row.1 := by
  intro row member
  cases List.mem_append.mp member with
  | inl skipped => exact Report.named_ofSkipped _ _ _ row skipped
  | inr taken => exact Report.named_ofResults (named_results past s) row taken

theorem outcomesAt_sheet {before later : List Step} {s : Step} (distinct : (before ++ s :: later).Nodup)
    {key : String} :
    (Report.empty.enterAll (x.sheets [] (before ++ s :: later))).outcomesAt s.name key =
      ((Table.empty.putAll (x.sheet before s).rows).get? key).toList := by
  have sheets : ((x.sheets [] (before ++ s :: later)).map (·.stage)).Nodup := by
    rw [stages_sheets]
    exact distinct.map Step.name_injective
  have entries := Report.entries_enterAll sheets (sheet_mem_sheets [] before s later) .empty
  have told : ∀ row ∈ (Table.empty.putAll (x.sheet before s).rows).entries, row.2.key = row.1 := by
    intro row member
    cases Table.mem_entries_putAll member with
    | inl none => cases none
    | inr row' => exact named_sheet before s row row'
  rw [Report.outcomesAt, Report.outcomesOf]
  change (((Report.empty.enterAll _).entries (x.sheet ([] ++ before) s).stage).values.filter _) = _
  rw [entries]
  exact Table.filter_values_eq_toList Report.Outcome.key told key

theorem get?_sheet_of_notMem {key : String} (stranger : key ∉ x.nodes.map (·.name)) (past : List Step)
    (s : Step) : (Table.empty.putAll (x.sheet past s).rows).get? key = none := by
  have absent : key ∉ (x.tasks past s).map (·.key) := by
    intro member
    obtain ⟨t, ht, rfl⟩ := List.mem_map.mp member
    obtain ⟨n, hn, -, task⟩ := mem_tasks.mp ht
    exact stranger ((key_of_task task).1 ▸ List.mem_map_of_mem hn)
  have taking : key ∉ x.skipped past := fun member =>
    stranger ((List.filter_sublist.map _).subset member)
  rw [sheet, Table.putAll_append, Report.get?_putAll_ofResults, Report.get?_putAll_ofSkipped,
    results, Executor.get?_results_of_notMem absent, if_neg taking]
  rfl

section
variable (names : (x.nodes.map (·.name)).Nodup)
include names

theorem mem_skipped {n : Node} (hn : n ∈ x.nodes) (past : List Step) :
    n.name ∈ x.skipped past ↔ x.isOut past n := by
  rw [skipped, List.mem_map]
  constructor
  · rintro ⟨m, member, same⟩
    obtain ⟨hm, out⟩ := List.mem_filter.mp member
    obtain rfl := eq_of_name names hm hn same
    exact out
  · exact fun out => ⟨n, List.mem_filter.mpr ⟨hn, out⟩, rfl⟩

theorem get?_sheet {n : Node} (hn : n ∈ x.nodes) (past : List Step) (s : Step) :
    (Table.empty.putAll (x.sheet past s).rows).get? n.name = x.entry? past s n := by
  rw [sheet, Table.putAll_append, Report.get?_putAll_ofResults, Report.get?_putAll_ofSkipped,
    get?_results names hn, entry?, outcome?]
  have left := mem_skipped names hn past
  cases out : x.isOut past n with
  | true => simp [left, out]
  | false => cases x.task? s n <;> simp [left, out]

theorem outcomesAt_sheets {n : Node} (hn : n ∈ x.nodes) {before later : List Step} {s : Step}
    (distinct : (before ++ s :: later).Nodup) :
    (Report.empty.enterAll (x.sheets [] (before ++ s :: later))).outcomesAt s.name n.name =
      (x.entry? before s n).toList := by
  rw [outcomesAt_sheet distinct, get?_sheet names hn]

end

theorem keys_sheets {steps : List Step} (distinct : steps.Nodup) :
    (Report.empty.enterAll (x.sheets [] steps)).stages.keys = steps.map Step.name := by
  rw [Report.keys_enterAll_empty, stages_sheets]
  rw [stages_sheets]
  exact distinct.map Step.name_injective

theorem allPassages_append (past steps steps' : List Step) :
    x.allPassages past (steps ++ steps') =
      x.allPassages past steps ++ x.allPassages (past ++ steps) steps' := by
  induction steps generalizing past with
  | nil => rw [List.nil_append, List.append_nil, allPassages, List.nil_append]
  | cons s r ih => rw [List.cons_append, allPassages, allPassages, ih, List.append_assoc,
      List.append_assoc, List.singleton_append]

/-- A connection in a step is that of a node that takes part, and it is over in the end: it has been
closed, unless it was refused. -/
theorem of_mem_passages {past : List Step} {s : Step} {p : Passage} (h : p ∈ x.passages past s) :
    (∃ n ∈ x.nodes, x.isOut past n = false ∧ p.channel = s.channel n) ∧
      ((x.hosts.behaviour p.channel).connectError.isSome ∨ .close ∈ p.events) := by
  obtain ⟨t, ht, made⟩ := List.mem_filterMap.mp h
  obtain ⟨n, hn, stays, task⟩ := mem_tasks.mp ht
  unfold Executor.passage? at made
  split at made
  · next command _ =>
    obtain rfl := Option.some.inj made
    refine ⟨⟨n, hn, stays, ?_⟩, Host.Exchange.close_mem_complete _ _ command⟩
    obtain ⟨c, -, rfl⟩ := Option.map_eq_some_iff.mp task
    rfl
  · cases made

theorem of_mem_allPassages {past steps : List Step} {p : Passage}
    (h : p ∈ x.allPassages past steps) :
    ∃ before s later, steps = before ++ s :: later ∧ p ∈ x.passages (past ++ before) s := by
  induction steps generalizing past with
  | nil => cases h
  | cons s r ih =>
    cases List.mem_append.mp h with
    | inl first => exact ⟨[], s, r, rfl, by rwa [List.append_nil]⟩
    | inr rest =>
      obtain ⟨before, s', later, rfl, there⟩ := ih rest
      refine ⟨s :: before, s', later, rfl, ?_⟩
      rwa [List.append_assoc, List.singleton_append] at there

end Rollout
end Deploy
end Flotilla
