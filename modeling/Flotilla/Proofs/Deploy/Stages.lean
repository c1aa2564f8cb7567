import Flotilla.Deploy.Step
import Flotilla.Proofs.Precedence
import Mathlib.Data.Nat.Find

/-! Stages are accepted exactly if they can run as they stand. As long as nothing is amiss, the check
knows the names of the stages it has passed and no others, so it stops at the first stage that could
not run in its place. -/
namespace Flotilla.Deploy.Stage
variable {stages : List Stage}

/-- The name of a stage is known already, or it depends on one that is not. -/
def Misfits (known : List String) (s : Stage) : Prop := s.name ∈ known ∨ ∃ d ∈ s.dependsOn, d ∉ known

/-- What is said against a stage behind known names: that its own is one of them, or else the first that
it depends on and that is not. -/
inductive Objection (known : List String) (s : Stage) : Misconfigured → Prop
  | repeated : s.name ∈ known → Objection known s (.repeatedStage s.name)
  | missing {front back : List String} {d : String} : s.name ∉ known →
      s.dependsOn = front ++ d :: back → (∀ e ∈ front, e ∈ known) → d ∉ known →
      Objection known s (.dependency s.name d)

def namesBefore (stages : List Stage) (i : Nat) : List String := (stages.take i).map (·.name)

def IsAmiss (stages : List Stage) (i : Nat) : Prop :=
  ∃ s, stages[i]? = some s ∧ Misfits (namesBefore stages i) s

/-- Each stage has a name of its own, and depends on nothing but stages before it. -/
structure InOrder (stages : List Stage) : Prop where
  distinct : (stages.map (·.name)).Nodup
  earlier : Precedence.IsOrdered name dependsOn stages

/-- The stage with the first name depends on the one with the second. -/
abbrev DependsOn : List Stage → String → String → Prop := Precedence.Needs name dependsOn

theorem mem_namesBefore_iff {i : Nat} {n : String} :
    n ∈ namesBefore stages i ↔ ∃ j < i, ∃ s, stages[j]? = some s ∧ s.name = n := by
  unfold namesBefore
  rw [List.mem_map]
  constructor
  · rintro ⟨s, member, rfl⟩
    obtain ⟨j, found⟩ := List.getElem?_of_mem member
    rw [List.getElem?_take] at found
    split at found
    · next before => exact ⟨j, before, s, found, rfl⟩
    · cases found
  · rintro ⟨j, before, s, found, rfl⟩
    refine ⟨s, List.mem_of_getElem? (i := j) ?_, rfl⟩
    rwa [List.getElem?_take_of_lt before]

theorem namesBefore_succ {i : Nat} (within : i < stages.length) :
    namesBefore stages (i + 1) = namesBefore stages i ++ [stages[i].name] := by
  unfold namesBefore
  rw [List.take_succ_eq_append_getElem within, List.map_append, List.map_singleton]

theorem nodup_names_iff : (stages.map (·.name)).Nodup ↔
    ∀ (i : Nat) s, stages[i]? = some s → s.name ∉ namesBefore stages i := by
  rw [List.nodup_iff_getElem?_ne_getElem?]
  simp only [mem_namesBefore_iff, List.length_map, List.getElem?_map]
  constructor
  · rintro distinct i s found ⟨j, before, t, found', same⟩
    have within := (List.getElem?_eq_some_iff.mp found).1
    apply distinct j i before within
    rw [found, found', Option.map_some, Option.map_some, same]
  · intro fresh j i before within same
    have within' : j < stages.length := by omega
    rw [List.getElem?_eq_getElem within, List.getElem?_eq_getElem within'] at same
    apply fresh i _ (List.getElem?_eq_getElem within)
    exact ⟨j, before, _, List.getElem?_eq_getElem within', by simpa using same⟩

theorem inOrder_iff : InOrder stages ↔ ∀ i, ¬ IsAmiss stages i := by
  constructor
  · rintro ⟨distinct, earlier⟩ i ⟨s, found, repeated | ⟨d, depends, unknown⟩⟩
    · exact nodup_names_iff.mp distinct i s found repeated
    · exact unknown (mem_namesBefore_iff.mpr (earlier i s found d depends))
  · intro fits
    constructor
    · apply nodup_names_iff.mpr
      intro i s found repeated
      exact fits i ⟨s, found, .inl repeated⟩
    · intro i s found d depends
      apply mem_namesBefore_iff.mp
      by_contra unknown
      exact fits i ⟨s, found, .inr ⟨d, depends, unknown⟩⟩

theorem IsAmiss.of_initial {p : List Stage} (initial : p <+: stages) {i : Nat} (amiss : IsAmiss p i) :
    IsAmiss stages i := by
  obtain ⟨r, rfl⟩ := initial
  obtain ⟨s, found, misfits⟩ := amiss
  have within : i < p.length := (List.getElem?_eq_some_iff.mp found).1
  have same : namesBefore (p ++ r) i = namesBefore p i := by
    unfold namesBefore
    rw [List.take_append_of_le_length (by omega)]
  exact ⟨s, by rwa [List.getElem?_append_left within], by rwa [same]⟩

theorem InOrder.of_initial {p : List Stage} (initial : p <+: stages) (ordered : InOrder stages) :
    InOrder p := by
  apply inOrder_iff.mpr
  intro i amiss
  exact inOrder_iff.mp ordered i (amiss.of_initial initial)

section
variable {known : List String} {s : Stage} (r : List Stage)

theorem checkAfter_of_fits (fits : ¬ Misfits known s) :
    checkAfter known (s :: r) = checkAfter (known ++ [s.name]) r := by
  simp only [Misfits, not_or, not_exists, not_and, not_not] at fits
  have none : s.dependsOn.find? (fun d => !known.contains d) = none := by
    simpa [List.find?_eq_none] using fits.2
  rw [checkAfter, if_neg (by simpa using fits.1), none]

theorem checkAfter_of_misfits (misfits : Misfits known s) :
    ∃ why, Objection known s why ∧ checkAfter known (s :: r) = .error (.misconfigured why) := by
  unfold checkAfter
  by_cases repeated : s.name ∈ known
  · exact ⟨_, .repeated repeated, by rw [if_pos (by simpa using repeated)]⟩
  · rw [if_neg (by simpa using repeated)]
    obtain ⟨d, depends, unknown⟩ := misfits.resolve_left repeated
    cases first : s.dependsOn.find? (fun d => !known.contains d) with
    | none =>
      have all := List.find?_eq_none.mp first d depends
      exact absurd (by simpa using all) unknown
    | some d =>
      obtain ⟨missing, front, back, listed, before⟩ := List.find?_eq_some_iff_append.mp first
      refine ⟨_, .missing repeated listed ?_ ?_, rfl⟩
      · simpa using before
      · simpa using missing

end

/-- Where the check is when it has come to a place. The induction is on the place: each stage that fits
adds its name to those that are known. -/
theorem check_eq_checkAfter {k : Nat} (fits : ∀ i < k, ¬ IsAmiss stages i) :
    check stages = checkAfter (namesBefore stages k) (stages.drop k) := by
  induction k with
  | zero => rfl
  | succ k ih =>
    rw [ih fun i before => fits i (by omega)]
    rcases Nat.lt_or_ge k stages.length with within | beyond
    · have fit : ¬ Misfits (namesBefore stages k) stages[k] := fun misfits =>
        fits k (by omega) ⟨_, List.getElem?_eq_getElem within, misfits⟩
      rw [List.drop_eq_getElem_cons within, checkAfter_of_fits _ fit, namesBefore_succ within]
    · unfold namesBefore
      rw [List.take_of_length_le beyond, List.take_of_length_le (by omega),
        List.drop_of_length_le beyond, List.drop_of_length_le (by omega)]

theorem check_of_inOrder (ordered : InOrder stages) : check stages = .ok () := by
  rw [check_eq_checkAfter fun i (_ : i < stages.length) => inOrder_iff.mp ordered i, List.drop_length,
    checkAfter]

theorem check_of_isAmiss {i : Nat} (amiss : IsAmiss stages i) (first : ∀ j < i, ¬ IsAmiss stages j) :
    ∃ s why, stages[i]? = some s ∧ Objection (namesBefore stages i) s why ∧
      check stages = .error (.misconfigured why) := by
  obtain ⟨s, found, misfits⟩ := amiss
  obtain ⟨within, rfl⟩ := List.getElem?_eq_some_iff.mp found
  obtain ⟨why, objection, refused⟩ := checkAfter_of_misfits (stages.drop (i + 1)) misfits
  refine ⟨_, why, found, objection, ?_⟩
  rw [check_eq_checkAfter first, List.drop_eq_getElem_cons within, refused]

theorem exists_first_isAmiss (amiss : ¬ InOrder stages) :
    ∃ i, IsAmiss stages i ∧ ∀ j < i, ¬ IsAmiss stages j := by
  classical
  have somewhere : ∃ i, IsAmiss stages i := by simpa [inOrder_iff] using amiss
  exact ⟨Nat.find somewhere, Nat.find_spec somewhere, fun _ => Nat.find_min somewhere⟩

/-- Stages are accepted exactly if they are in order, and else refused for the first that is amiss. What
is accepted could have ended anywhere, and no stage in it waits for itself, be it by way of others. -/
theorem check_settles_order (stages : List Stage) :
    (check stages = .ok () ↔ InOrder stages) ∧
    (¬ InOrder stages → ∃ i s why, stages[i]? = some s ∧ IsAmiss stages i ∧
      (∀ j < i, ¬ IsAmiss stages j) ∧ Objection (namesBefore stages i) s why ∧
      check stages = .error (.misconfigured why)) ∧
    (check stages = .ok () → (∀ p, p <+: stages → check p = .ok ()) ∧
      (∀ s ∈ stages, s.name ∉ s.dependsOn) ∧
      ∀ name, ¬ Relation.TransGen (DependsOn stages) name name) := by
  have refused (amiss : ¬ InOrder stages) : ∃ i s why, stages[i]? = some s ∧ IsAmiss stages i ∧
      (∀ j < i, ¬ IsAmiss stages j) ∧ Objection (namesBefore stages i) s why ∧
      check stages = .error (.misconfigured why) := by
    obtain ⟨i, misplaced, first⟩ := exists_first_isAmiss amiss
    obtain ⟨s, why, found, objection, stopped⟩ := check_of_isAmiss misplaced first
    exact ⟨i, s, why, found, misplaced, first, objection, stopped⟩
  have accepted (ok : check stages = .ok ()) : InOrder stages := by
    by_contra amiss
    obtain ⟨i, s, why, -, -, -, -, stopped⟩ := refused amiss
    cases ok.symm.trans stopped
  refine ⟨⟨accepted, check_of_inOrder⟩, refused, fun ok => ?_⟩
  have ordered := accepted ok
  have acyclic := Precedence.not_needs_itself ordered.distinct ordered.earlier
  refine ⟨fun p initial => check_of_inOrder (ordered.of_initial initial), ?_, acyclic⟩
  intro s member itself
  exact acyclic s.name (.single ⟨s, member, rfl, itself⟩)

/-- The steps of a deployment can run as they stand. Two stages that wait for each other cannot, and the
first of them is to blame, although a name is repeated behind them. -/
theorem check_settles_steps :
    let steps := Step.all.map Step.stage
    let crossed : List Stage := [⟨"clean", [], false⟩, ⟨"build", ["clean", "fetch"], false⟩,
      ⟨"fetch", ["build"], false⟩, ⟨"clean", [], false⟩]
    (check steps = .ok () ∧ InOrder steps ∧ (∀ p, p <+: steps → check p = .ok ()) ∧
      ∀ name, ¬ Relation.TransGen (DependsOn steps) name name) ∧
    check crossed = .error (.misconfigured (.dependency "build" "fetch")) ∧ ¬ InOrder crossed ∧
      ∃ i, IsAmiss crossed i ∧ ∀ j < i, ¬ IsAmiss crossed j := by
  intro steps crossed
  obtain ⟨iff, -, accepted⟩ := check_settles_order steps
  obtain ⟨initial, -, acyclic⟩ := accepted Step.check_all
  have stopped : check crossed = .error (.misconfigured (.dependency "build" "fetch")) := rfl
  obtain ⟨iff', refused, -⟩ := check_settles_order crossed
  have amiss : ¬ InOrder crossed := fun ordered => by cases (iff'.mpr ordered).symm.trans stopped
  obtain ⟨i, s, why, -, misplaced, first, -, -⟩ := refused amiss
  exact ⟨⟨Step.check_all, iff.mp Step.check_all, initial, acyclic⟩, stopped, amiss, i, misplaced,
    first⟩

end Flotilla.Deploy.Stage
