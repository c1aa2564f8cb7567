import Flotilla.Proofs.CommandLine.Ending
import Flotilla.Proofs.Fleet.Listed

/-! How the program takes a roster. It goes on with the nodes that the roster lists, and reports what is
wrong with the settings; only a template that cannot be filled in stops it, or a size that is too long to
be told. -/
namespace Flotilla.CommandLine.Program

/-- A roster comes to the nodes it lists, or its settings are found wrong, which the program reports. -/
structure Judges (r : Roster) (w : Template.Objects) : Prop where
  returns : ∀ nodes, r.nodes w = .ok nodes ↔ r.Lists w nodes
  refuses : BlamesSettings (r.nodes w)
  reports : ∀ (o : Options) (v : Variant), roster o = r → variant o = .ok v → ∀ f, r.nodes w = .error f →
    ∀ s : Session, s.objects = w →
      exec (scenario o) s = (.ok none, Executor.told s [Log.error s!"Invalid scenario: {f.message}"])

theorem fleet_of_roster {o : Options} {v : Variant} (chosen : variant o = .ok v) {w : Template.Objects}
    {f : Fault} (failed : (roster o).nodes w = .error f) : fleet o w = .error f := by
  rw [fleet, chosen]
  change (roster o).nodes w >>= _ = _
  rw [failed]
  rfl

/-- Whatever a roster of texts and integers is like, and whatever there is for its template to get at: it
is judged by what it says, unless its template cannot be filled in with the ordinal of a node, or its size
is wrong and too long to be told. -/
theorem judges_iff {r : Roster} (plain : r.IsPlain) (w : Template.Objects) :
    Judges r w ↔ ¬ r.IsUntold ∧ ¬ ∃ why, r.Falters w why := by
  constructor
  · intro judges
    constructor
    · intro untold
      obtain ⟨_, blamed⟩ := judges.refuses _ (Roster.nodes_of_isUntold plain untold)
      cases blamed
    · rintro ⟨why, falters⟩
      obtain ⟨why, -, failed⟩ := Roster.nodes_of_falters plain falters
      obtain ⟨_, blamed⟩ := judges.refuses _ failed
      exact Roster.not_misconfigured_ofTemplate _ _ blamed
  · rintro ⟨told, steady⟩
    have blames : BlamesSettings (r.nodes w) := by
      intro f failed
      rcases Roster.nodes_eq_error_cases plain failed with blamed | ⟨untold, -⟩ | ⟨why, falters, -⟩
      · exact blamed
      · exact absurd untold told
      · exact absurd ⟨why, falters⟩ steady
    constructor
    case returns => exact fun nodes => Roster.nodes_eq_ok_iff plain
    case refuses => exact blames
    case reports =>
      rintro o v rfl chosen f failed s rfl
      obtain ⟨why, rfl⟩ := blames f failed
      rw [exec_scenario, fleet_of_roster chosen failed]
      rfl

/-- Three nodes, their number written with blanks, and their names with two digits. -/
theorem judges_padded :
    let r : Roster := { size := .text " 3", template := .text "bc-\x7b:02\x7d.lab" }
    r.IsPlain ∧ r.nodes .types = .ok [⟨0, "bc-00.lab"⟩, ⟨1, "bc-01.lab"⟩, ⟨2, "bc-02.lab"⟩] ∧
      Judges r .types := by
  intro r
  have plain : r.IsPlain := ⟨trivial, ⟨_, rfl⟩, .inl rfl⟩
  have filled : r.nodes .types = .ok [⟨0, "bc-00.lab"⟩, ⟨1, "bc-01.lab"⟩, ⟨2, "bc-02.lab"⟩] := by
    decide +kernel
  refine ⟨plain, filled, (judges_iff plain .types).mpr ⟨fun untold => ?_, ?_⟩⟩
  · have failed := Roster.nodes_of_isUntold (w := .types) plain untold
    rw [filled] at failed
    cases failed
  · rintro ⟨why, falters⟩
    obtain ⟨why, -, failed⟩ := Roster.nodes_of_falters plain falters
    rw [filled] at failed
    cases failed

/-- A template that asks for a second number has none to be filled in with. -/
theorem not_judges_second_number :
    let r : Roster := { size := .num (.int 2), template := .text "node\x7b1\x7d" }
    r.IsPlain ∧ ∀ w, ¬ Judges r w := by
  intro r
  refine ⟨⟨trivial, ⟨_, rfl⟩, .inl rfl⟩, fun w judges => ?_⟩
  have failed : r.nodes w = .error (.outOfRange
      "Replacement index 1 out of range for positional args tuple") := by rfl
  obtain ⟨why, blamed⟩ := judges.refuses _ failed
  cases blamed

end Flotilla.CommandLine.Program
