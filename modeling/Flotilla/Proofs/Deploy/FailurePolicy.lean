import Flotilla.Proofs.Deploy.Account

/-! What a run does about failures. No stage reaches out to a host before the stages that come before
it are done with all of theirs. A failure shows in the report of the node that failed; when failed
nodes are left out, the later stages say so and leave the node alone. -/
namespace Flotilla.Deploy

/-- Events of some stages, stage after stage: when a stage does anything over a connection, those of
the stages before it have all been opened, and closed unless they were refused. -/
structure StageByStage (hosts : Host.Script) (stages : List String) (events : List Happening) :
    Prop where
  staged : ∀ h ∈ events, ∃ stage ∈ stages, h.channel.label = some stage
  ordered : ∀ {earlier later}, [earlier, later].Sublist stages →
    ∀ {past h future}, events = past ++ h :: future → h.channel.label = some later →
      ∀ o ∈ events, o.channel.label = some earlier →
        o ∈ past ∧ ((hosts.behaviour o.channel).connectError.isSome ∨
          ⟨o.connection, o.channel, .close⟩ ∈ past)

theorem prefix_of_notMem {α : Type} {front rest past future : List α} {a : α}
    (cut : front ++ rest = past ++ a :: future) (h : a ∉ front) : front <+: past := by
  rcases List.append_eq_append_iff.mp cut with ⟨more, rfl, -⟩ | ⟨more, rfl, parts⟩
  · exact List.prefix_append front more
  · cases more with
    | nil => simp
    | cons b more =>
      obtain ⟨rfl, -⟩ := List.cons.inj parts
      exact absurd (by simp) h

namespace Rollout
variable {x : Rollout}

theorem staged_happenings {base : Nat} {past steps : List Step} {h : Happening}
    (member : h ∈ Passage.happenings base (x.allPassages past steps)) :
    (∃ s ∈ steps, h.channel.label = some s.name) ∧
      ((x.hosts.behaviour h.channel).connectError.isSome ∨
        ⟨h.connection, h.channel, .close⟩ ∈ Passage.happenings base (x.allPassages past steps)) := by
  obtain ⟨p, hp, channel, -, all⟩ := Passage.mem_happenings member
  obtain ⟨before, s, later, rfl, there⟩ := of_mem_allPassages hp
  obtain ⟨⟨n, -, -, reached⟩, ended⟩ := of_mem_passages there
  rw [channel]
  refine ⟨⟨s, by simp, congrArg Host.Channel.label reached⟩, ended.imp_right fun closed => all _ closed⟩

theorem stageByStage (base : Nat) {steps : List Step} (distinct : steps.Nodup) :
    StageByStage x.hosts (steps.map Step.name) (Passage.happenings base (x.allPassages [] steps)) where
  staged h member := by
    obtain ⟨⟨s, hs, label⟩, -⟩ := staged_happenings member
    exact ⟨s.name, List.mem_map_of_mem hs, label⟩
  ordered {earlier later} order past h future cut label o member ofEarlier := by
    -- The steps up to the earlier stage come in front, and the later stage is among the rest.
    obtain ⟨front, rest, parts, inFront, inRest⟩ := List.cons_sublist_iff.mp order
    obtain ⟨front, rest, rfl, rfl, rfl⟩ := List.map_eq_append_iff.mp parts
    rw [List.singleton_sublist] at inRest
    have apart : ∀ s ∈ front, ∀ s' ∈ rest, s.name ≠ s'.name := fun s hs s' hs' same =>
      (List.nodup_append.mp distinct).2.2 s hs s' hs' (Step.name_injective same)
    have notInFront : h ∉ Passage.happenings base (x.allPassages [] front) := by
      intro there
      obtain ⟨⟨s, hs, label'⟩, -⟩ := staged_happenings there
      obtain ⟨s', hs', same⟩ := List.mem_map.mp inRest
      exact apart s hs s' hs' (by simpa [label', ← same] using label)
    rw [allPassages_append, Passage.happenings_append] at cut member
    obtain ⟨done, rfl⟩ := prefix_of_notMem cut notInFront
    cases List.mem_append.mp member with
    | inl there =>
      obtain ⟨-, ended⟩ := staged_happenings there
      exact ⟨List.mem_append_left _ there, ended.imp_right fun c => List.mem_append_left _ c⟩
    | inr late =>
      obtain ⟨⟨s, hs, label'⟩, -⟩ := staged_happenings late
      obtain ⟨s', hs', same⟩ := List.mem_map.mp inFront
      exact absurd (by simpa [label', ← same] using ofEarlier) (apart s' hs' s hs).symm

/-- The report has of a node in these steps what its host answered, once, and nothing where there was
nothing to do. -/
def AsAnswered (x : Rollout) (n : Node) (report : Report) (steps : List Step) : Prop :=
  ∀ s ∈ steps, report.outcomesAt s.name n.name = (x.outcome? n s).toList

/-- What becomes of a node, and what has passed over its connections. Left out, it is so from the first
step in which it failed on. -/
structure Treats (x : Rollout) (n : Node) (report : Report) (events : List Happening) : Prop where
  carriedOn : x.pipeline.policy = .carryOn → x.AsAnswered n report x.pipeline.steps
  unfailing : (∀ s ∈ x.pipeline.steps, x.fails n s = false) →
    x.AsAnswered n report x.pipeline.steps
  leftOut : x.pipeline.policy = .skipFailed →
    ∀ {before j later}, x.pipeline.steps = before ++ j :: later →
      (∀ s ∈ before, x.fails n s = false) → x.fails n j →
      x.AsAnswered n report before ∧
      (∃ o, x.outcome? n j = some o ∧ o.status = .failed ∧ report.outcomesAt j.name n.name = [o]) ∧
      (∀ s ∈ later,
        report.outcomesAt s.name n.name = [.skipped s.name n.name (some reason)]) ∧
      ∀ h ∈ events, h.channel.key = some n.name →
        ∃ s ∈ before ++ [j], h.channel.label = some s.name

theorem isOut_eq_false {past : List Step} {n : Node} (h : ∀ s ∈ past, x.fails n s = false) :
    x.isOut past n = false := by
  have none : past.any (x.fails n) = false := List.any_eq_false.mpr fun s hs => by simp [h s hs]
  simp [isOut, none]

theorem isOut_of_fails (policy : x.pipeline.policy = .skipFailed) {past : List Step} {n : Node}
    {j : Step} (hj : j ∈ past) (fails : x.fails n j) : x.isOut past n := by
  have some : past.any (x.fails n) := List.any_eq_true.mpr ⟨j, hj, fails⟩
  simp [isOut, policy, some]

section
variable (names : (x.nodes.map (·.name)).Nodup) {n : Node} (hn : n ∈ x.nodes)
include names hn

theorem outcomesAt_steps {before later : List Step} {s : Step}
    (cut : x.pipeline.steps = before ++ s :: later) :
    (Report.empty.enterAll (x.sheets [] x.pipeline.steps)).outcomesAt s.name n.name =
      if x.isOut before n then [.skipped s.name n.name (some reason)]
      else (x.outcome? n s).toList := by
  rw [cut, outcomesAt_sheets names hn (cut ▸ x.pipeline.nodup_steps), entry?]
  split <;> rfl

theorem stays_of_mem_happenings {base : Nat} {h : Happening} (key : h.channel.key = some n.name)
    (member : h ∈ Passage.happenings base (x.allPassages [] x.pipeline.steps)) :
    ∃ before s later, x.pipeline.steps = before ++ s :: later ∧ x.isOut before n = false ∧
      h.channel.label = some s.name := by
  obtain ⟨p, hp, channel, -⟩ := Passage.mem_happenings member
  obtain ⟨before, s, later, cut, there⟩ := of_mem_allPassages hp
  obtain ⟨⟨m, hm, stays, reached⟩, -⟩ := of_mem_passages there
  rw [channel, reached] at key ⊢
  obtain rfl := eq_of_name names hm hn (Option.some.inj key)
  exact ⟨before, s, later, cut, stays, rfl⟩

theorem treats (base : Nat) :
    x.Treats n (Report.empty.enterAll (x.sheets [] x.pipeline.steps))
      (Passage.happenings base (x.allPassages [] x.pipeline.steps)) where
  carriedOn policy s hs := by
    obtain ⟨before, later, cut⟩ := List.append_of_mem hs
    have stays : x.isOut before n = false := by simp [isOut, policy]
    rw [outcomesAt_steps names hn cut, stays, if_neg Bool.false_ne_true]
  unfailing fine s hs := by
    obtain ⟨before, later, cut⟩ := List.append_of_mem hs
    have stays : x.isOut before n = false :=
      isOut_eq_false fun t ht => fine t (cut ▸ List.mem_append_left _ ht)
    rw [outcomesAt_steps names hn cut, stays, if_neg Bool.false_ne_true]
  leftOut policy before j later cut fine fails := by
    refine ⟨fun s hs => ?_, ?_, fun s hs => ?_, fun h member key => ?_⟩
    · obtain ⟨earlier, rest, rfl⟩ := List.append_of_mem hs
      have stays : x.isOut earlier n = false :=
        isOut_eq_false fun t ht => fine t (List.mem_append_left _ ht)
      rw [List.append_assoc, List.cons_append] at cut
      rw [outcomesAt_steps names hn cut, stays, if_neg Bool.false_ne_true]
    · obtain ⟨o, given, failed⟩ : ∃ o, x.outcome? n j = some o ∧ o.status = .failed := by
        simpa only [decide_eq_true_eq] using (Option.any_eq_true _ _).mp fails
      refine ⟨o, given, failed, ?_⟩
      rw [outcomesAt_steps names hn cut, isOut_eq_false fine, if_neg Bool.false_ne_true, given]
      rfl
    · obtain ⟨between, rest, rfl⟩ := List.append_of_mem hs
      rw [← List.cons_append, ← List.append_assoc] at cut
      rw [outcomesAt_steps names hn cut, if_pos (isOut_of_fails policy (by simp) fails)]
    · obtain ⟨earlier, s, rest, cut', stays, label⟩ := stays_of_mem_happenings names hn key member
      refine ⟨s, ?_, label⟩
      by_contra late
      have front : (before ++ [j]) ++ later = earlier ++ s :: rest := by
        rw [← cut', cut, List.append_assoc, List.singleton_append]
      have out : x.isOut earlier n :=
        isOut_of_fails policy ((prefix_of_notMem front late).subset (by simp)) fails
      exact absurd out (by simp [stays])

end

end Rollout

end Flotilla.Deploy
