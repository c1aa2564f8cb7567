import Flotilla.Proofs.Deploy.Archives

/-! Histories of a pipeline: its prepares and runs in any order, also those that fail, while the files
here and the hosts change between them. A run prepares first if need be; only its stages open
connections. What they find there is what a prepare has finished, unless a prepare since then has begun
archives and failed. -/
namespace Flotilla.Deploy

/-- What a pipeline does in a prepare or a run. -/
inductive Deed
  | prepare (w : Pipeline.Workspace)
  | stages

structure Entry where
  deed : Deed
  before : Progress
  after : Progress
  outcome : Except Fault Unit

namespace Entry

def opened (e : Entry) : List Host.Channel :=
  openings (e.after.session.trace.drop e.before.session.trace.length)

def isFinished (e : Entry) : Bool :=
  match e.deed with
  | .prepare _ => e.outcome.isOk
  | .stages => false

structure Finishes (e : Entry) (source inputs : String) : Prop where
  prepares : ∃ w, e.deed = .prepare w
  outcome : e.outcome = .ok ⟨⟩
  built : e.after.built = ⟨some source, some inputs⟩
  lie : e.after.built.LieOn e.after.session.disk

/-- Connections are opened only with archives in force that an earlier prepare has finished and that
are there, and a failing prepare leaves in force what was. -/
structure Fine (past : List Entry) (e : Entry) : Prop where
  shipped : e.opened ≠ [] →
    (∃ source inputs, e.before.built = ⟨some source, some inputs⟩ ∧
      ∃ x ∈ past, x.Finishes source inputs) ∧
    e.before.built.LieOn e.before.session.disk ∧
    e.after.built = e.before.built ∧ e.after.session.disk = e.before.session.disk
  failed : ∀ w, e.deed = .prepare w → ¬ e.outcome.isOk → e.after.built = e.before.built

end Entry

/-- Something holds of each entry in view of those before it. -/
def Throughout (P : List Entry → Entry → Prop) (h : List Entry) : Prop :=
  ∀ i, (lt : i < h.length) → P (h.take i) h[i]

instance {P : List Entry → Entry → Prop} [∀ past e, Decidable (P past e)] (h : List Entry) :
    Decidable (Throughout P h) :=
  inferInstanceAs (Decidable (∀ i, (lt : i < h.length) → P (h.take i) h[i]))

theorem throughout_nil {P : List Entry → Entry → Prop} : Throughout P [] := nofun

theorem throughout_concat {P : List Entry → Entry → Prop} {h : List Entry} {e : Entry} :
    Throughout P (h ++ [e]) ↔ Throughout P h ∧ P h e := by
  constructor
  · refine fun all => ⟨fun i lt => ?_, ?_⟩
    · have earlier := all i (by rw [List.length_append]; omega)
      rwa [List.take_append_of_le_length lt.le, List.getElem_append_left lt] at earlier
    · have last := all h.length (by simp)
      rwa [List.take_left, List.getElem_concat_length rfl] at last
  · rintro ⟨earlier, last⟩ i lt
    rw [List.length_append, List.length_singleton] at lt
    by_cases before : i < h.length
    · rw [List.take_append_of_le_length before.le, List.getElem_append_left before]
      exact earlier i before
    · obtain rfl : i = h.length := by omega
      rwa [List.take_left, List.getElem_concat_length rfl]

def Upright (h : List Entry) : Prop := Throughout (fun past e => e.Fine past) h

/-- What comes next: a call, or a change of what is outside. -/
inductive Move
  | prepare (directory : Value)
  | run (directory : Option Value) (report : Report)
  | filesBecame (disk : Files.Disk)
  | hostsBecame (hosts : Host.Script)

def Move.Spares (g : Progress) : Move → Prop
  | .filesBecame disk => ∀ path, g.built.source = some path ∨ g.built.inputs = some path →
      g.session.disk.HasArchive path → disk.entry? path = g.session.disk.entry? path
  | _ => True

namespace Pipeline
variable (p : Pipeline)

def perform : Deed → Act Unit
  | .prepare w => p.prepareIn w
  | .stages => p.runSteps [] p.steps

def entry (k : Deed) (g : Progress) : Entry :=
  let (x,g') := exec (p.perform k) g
  ⟨k, g, g', x⟩

/-- Each is done if those before it have not failed. -/
def entries : List Deed → Progress → List Entry
  | [], _ => []
  | k :: r, g =>
    let e := p.entry k g
    e :: match e.outcome with
      | .ok _ => entries r e.after
      | .error _ => []

def performAll : List Deed → Act Unit
  | [] => return ⟨⟩
  | k :: r => do
    p.perform k
    performAll r

def deeds (g : Progress) : Move → List Deed
  | .prepare directory => [.prepare (.given directory)]
  | .run directory _ =>
    (if g.built.source.isNone || g.built.inputs.isNone then [.prepare (.ofGiven directory)] else []) ++
      [.stages]
  | _ => []

def begin (g : Progress) : Move → Progress
  | .run _ report => { g with report }
  | _ => g

def move (g : Progress) : Move → Progress
  | .prepare directory => (exec (p.prepare directory) g).2
  | .run directory report => (exec (p.run directory report) g).2
  | .filesBecame disk => { g with session := { g.session with disk } }
  | .hostsBecame hosts => { g with session := { g.session with hosts } }

def history : List Move → Progress → List Entry
  | [], _ => []
  | m :: r, g => p.entries (deeds g m) (begin g m) ++ history r (p.move g m)

def Spared : List Move → Progress → Prop
  | [], _ => True
  | m :: r, g => m.Spares g ∧ Spared r (p.move g m)

/-- A prepare that has begun an archive and then fails. -/
def Spoils (e : Entry) : Prop :=
  match e.deed with
  | .prepare w => (exec (p.readyIn w) e.before).1.isOk ∧ ¬ e.outcome.isOk
  | .stages => False

instance : (e : Entry) → Decidable (p.Spoils e)
  | ⟨.prepare _, _, _, _⟩ => inferInstanceAs (Decidable (_ ∧ _))
  | ⟨.stages, _, _, _⟩ => inferInstanceAs (Decidable False)

def isDamaged (past : List Entry) : Bool :=
  past.foldl (fun damaged e => p.Spoils e || (damaged && !e.isFinished)) false

/-- A prepare that spoils was to build the archives that are in force again, and connections are opened
after it only if both lie there all the same. -/
structure Careful (past : List Entry) (e : Entry) : Prop where
  again : p.Spoils e → e.after.built = e.before.built
  mended : p.isDamaged past → e.opened ≠ [] → e.before.built.LieOn e.before.session.disk

theorem performAll_singleton (k : Deed) : p.performAll [k] = p.perform k := by
  simp only [performAll, bind_pure_unit]

theorem isDamaged_concat (past : List Entry) (e : Entry) :
    p.isDamaged (past ++ [e]) = (p.Spoils e || (p.isDamaged past && !e.isFinished)) := by
  simp [isDamaged]

theorem exec_run (directory : Option Value) (report : Report) (g : Progress) :
    (exec (p.run directory report) g).2 =
      (exec (p.performAll (deeds g (.run directory report))) { g with report }).2 := by
  have last (x : Act Unit) (h : Progress) :
      (exec (do x; return (← get).report) h).2 = (exec x h).2 := by
    rw [exec_bind]
    rcases exec x h with ⟨_ | _, h'⟩ <;> rfl
  rw [run, exec_bind_ok (exec_modify _ _), exec_bind_ok (exec_get _), deeds]
  dsimp only
  by_cases unbuilt : g.built.source.isNone || g.built.inputs.isNone
  · rw [if_pos unbuilt, if_pos unbuilt, List.cons_append, List.nil_append, performAll,
      performAll_singleton, ← last]
    simp only [perform, bind_assoc]
  · rw [if_neg unbuilt, if_neg unbuilt, List.nil_append, performAll_singleton]
    exact last _ _

end Pipeline

/-- No archive counts as built, or those that do have been finished by a prepare. -/
inductive Named (past : List Entry) (g : Progress) : Prop
  | unbuilt : g.built = ⟨none, none⟩ → Named past g
  | finished {source inputs : String} {x : Entry} : x ∈ past → x.Finishes source inputs →
      g.built = ⟨some source, some inputs⟩ → Named past g

theorem Named.move {past : List Entry} {g g' : Progress} (h : Named past g)
    (built : g'.built = g.built) : Named past g' := by
  cases h with
  | unbuilt unbuilt => exact .unbuilt (built.trans unbuilt)
  | finished earlier finishes named => exact .finished earlier finishes (built.trans named)

theorem Named.concat {past : List Entry} {g : Progress} (h : Named past g) (e : Entry) :
    Named (past ++ [e]) g := by
  cases h with
  | unbuilt unbuilt => exact .unbuilt unbuilt
  | finished earlier finishes named =>
    exact .finished (List.mem_append_left _ earlier) finishes named

namespace Pipeline
variable (p : Pipeline) {past : List Entry} {g : Progress}

/-- Those in force are there, unless a prepare has spoiled since. -/
structure Stands (past : List Entry) (g : Progress) : Prop where
  named : Named past g
  lie : p.isDamaged past = false → g.built.LieOn g.session.disk

variable {p} in
theorem Stands.move {g' : Progress} (h : p.Stands past g) (built : g'.built = g.built)
    (lie : g.built.LieOn g.session.disk → g.built.LieOn g'.session.disk) : p.Stands past g' :=
  ⟨h.named.move built, fun whole => built ▸ lie (h.lie whole)⟩

variable {p} in
theorem Stands.concat (h : p.Stands past g) {e : Entry} (spares : ¬ p.Spoils e)
    (unfinished : e.isFinished = false) : p.Stands (past ++ [e]) g :=
  ⟨h.named.concat e, fun whole => h.lie (by simpa [isDamaged_concat, spares, unfinished] using whole)⟩

theorem prepare_entry (stands : p.Stands past g) (w : Workspace) :
    let e := p.entry (.prepare w) g
    (e.Fine past ↔ p.Careful past e) ∧ (p.Careful past e → p.Stands (past ++ [e]) e.after) := by
  obtain ⟨x, g', taken, trace, came⟩ := p.exec_prepareIn w g
  have silent : (p.entry (.prepare w) g).opened = [] := by
    rw [Entry.opened, entry, perform, taken]
    simp [trace, openings]
  unfold entry at silent ⊢
  rw [perform, taken] at silent ⊢
  dsimp only at silent ⊢
  cases came with
  | unbegun f begun cleared =>
    have spares : ¬ p.Spoils ⟨.prepare w, g, g', .error f⟩ := by
      rintro ⟨begun', -⟩
      rw [begun] at begun'
      cases begun'
    refine ⟨iff_of_true ⟨fun opened => absurd silent opened, fun _ _ _ => cleared.built⟩
      ⟨fun spoils => absurd spoils spares, fun _ opened => absurd silent opened⟩, fun _ => ?_⟩
    exact (stands.move cleared.built fun lie => lie.keeps cleared.disk (by simp)).concat spares rfl
  | done begun source inputs lie =>
    obtain ⟨source, hs⟩ := Option.isSome_iff_exists.mp source
    obtain ⟨inputs, hi⟩ := Option.isSome_iff_exists.mp inputs
    have built : g'.built = ⟨some source, some inputs⟩ := by rw [← hs, ← hi]
    refine ⟨iff_of_true ⟨fun opened => absurd silent opened, fun _ _ failed => absurd rfl failed⟩
      ⟨fun spoils => absurd rfl spoils.2, fun _ opened => absurd silent opened⟩, fun _ => ?_⟩
    refine ⟨.finished (List.mem_append_right _ (List.mem_singleton_self _)) ⟨⟨w, rfl⟩, rfl, built, lie⟩
      built, fun _ => lie⟩
  | spoilt f begun _ =>
    have spoils : p.Spoils ⟨.prepare w, g, g', .error f⟩ := ⟨begun, Bool.false_ne_true⟩
    refine ⟨⟨fun fine => ?_, fun careful => ?_⟩, fun careful => ?_⟩
    · exact ⟨fun _ => fine.failed w rfl Bool.false_ne_true, fun _ opened => absurd silent opened⟩
    · exact ⟨fun opened => absurd silent opened, fun _ _ _ => careful.again spoils⟩
    · refine ⟨(stands.named.move (careful.again spoils)).concat _, fun whole => ?_⟩
      simp [isDamaged_concat, spoils] at whole

theorem stages_entry (stands : p.Stands past g)
    (ready : g.built.source.isSome ∧ g.built.inputs.isSome) :
    let e := p.entry .stages g
    (e.Fine past ↔ p.Careful past e) ∧ (p.Careful past e → p.Stands (past ++ [e]) e.after) := by
  have same := p.runSteps_reaches [] p.steps g
  unfold entry perform
  generalize exec (p.runSteps [] p.steps) g = taken at same ⊢
  obtain ⟨x, g'⟩ := taken
  have disk : g'.session.disk = g.session.disk := same.steady.disk
  refine ⟨⟨fun fine => ⟨nofun, fun _ opened => (fine.shipped opened).2.1⟩, fun careful => ?_⟩,
    fun _ => (stands.move same.built fun lie => disk ▸ lie).concat id rfl⟩
  refine ⟨fun opened => ⟨?_, ?_, same.built, disk⟩, nofun⟩
  · cases stands.named with
    | unbuilt built =>
      rw [built] at ready
      cases ready.1
    | finished earlier finishes built => exact ⟨_, _, built, _, earlier, finishes⟩
  · cases damaged : p.isDamaged past with
    | false => exact stands.lie damaged
    | true => exact careful.mended damaged opened

theorem entry_ready {k : Deed}
    (ready : k = .stages → g.built.source.isSome ∧ g.built.inputs.isSome)
    (ok : (p.entry k g).outcome.isOk) :
    (p.entry k g).after.built.source.isSome ∧ (p.entry k g).after.built.inputs.isSome := by
  cases k with
  | prepare w =>
    obtain ⟨x, g', taken, -, came⟩ := p.exec_prepareIn w g
    rw [entry, perform, taken] at ok ⊢
    cases came with
    | done _ source inputs => exact ⟨source, inputs⟩
    | unbegun => cases ok
    | spoilt => cases ok
  | stages =>
    have same := (p.runSteps_reaches [] p.steps g).built
    rw [show (p.entry .stages g).after.built = g.built from same]
    exact ready rfl

/-- What is so at any point of a history. Once one has not been careful, nothing more is said. -/
structure Kept (past : List Entry) (g : Progress) : Prop where
  upright : Upright past ↔ Throughout p.Careful past
  stands : Throughout p.Careful past → p.Stands past g

theorem kept_nil (unbuilt : g.built = ⟨none, none⟩) : p.Kept [] g := by
  refine ⟨iff_of_true throughout_nil throughout_nil, fun _ => ⟨.unbuilt unbuilt, fun _ path counts => ?_⟩⟩
  rw [unbuilt] at counts
  rcases counts with counts | counts <;> cases counts

theorem Kept.entry {p : Pipeline} (kept : p.Kept past g) {k : Deed}
    (ready : k = .stages → g.built.source.isSome ∧ g.built.inputs.isSome) :
    p.Kept (past ++ [p.entry k g]) (p.entry k g).after := by
  have came (stands : p.Stands past g) :
      ((p.entry k g).Fine past ↔ p.Careful past (p.entry k g)) ∧
        (p.Careful past (p.entry k g) → p.Stands (past ++ [p.entry k g]) (p.entry k g).after) := by
    cases k with
    | prepare w => exact p.prepare_entry stands w
    | stages => exact p.stages_entry stands (ready rfl)
  constructor
  · rw [Upright, throughout_concat, throughout_concat]
    exact (and_congr_left fun _ => kept.upright).trans
      (and_congr_right fun careful => (came (kept.stands careful)).1)
  · intro careful
    obtain ⟨earlier, last⟩ := throughout_concat.mp careful
    exact (came (kept.stands earlier)).2 last

theorem Kept.entries {p : Pipeline} (ks : List Deed) (kept : p.Kept past g)
    (ready : ks.head? = some .stages → g.built.source.isSome ∧ g.built.inputs.isSome) :
    p.Kept (past ++ p.entries ks g) (exec (p.performAll ks) g).2 := by
  induction ks generalizing past g with
  | nil => simpa [Pipeline.entries, performAll] using kept
  | cons k r ih =>
    have ready : k = .stages → g.built.source.isSome ∧ g.built.inputs.isSome := by simpa using ready
    have first := kept.entry ready
    have last := p.entry_ready ready
    rw [performAll, exec_bind, Pipeline.entries]
    unfold Pipeline.entry at first last ⊢
    generalize exec (p.perform k) g = taken at first last ⊢
    -- What would come after a deed that failed is not done.
    rcases taken with ⟨_ | _, g'⟩
    · exact first
    · simpa using ih first fun _ => last rfl

theorem Kept.move {p : Pipeline} (kept : p.Kept past g) {m : Move} (spares : m.Spares g) :
    p.Kept (past ++ p.entries (deeds g m) (begin g m)) (p.move g m) := by
  cases m with
  | prepare directory =>
    have next := kept.entries [.prepare (.given directory)] nofun
    rwa [performAll_singleton] at next
  | run directory report =>
    have begun : p.Kept past { g with report } :=
      ⟨kept.upright, fun careful => (kept.stands careful).move rfl id⟩
    rw [Pipeline.move, exec_run]
    refine begun.entries _ fun first => ?_
    by_cases unbuilt : g.built.source.isNone || g.built.inputs.isNone
    · simp [deeds, unbuilt] at first
    · simpa [Option.isSome_iff_ne_none] using unbuilt
  | filesBecame disk =>
    simp only [deeds, Pipeline.entries, List.append_nil]
    refine ⟨kept.upright, fun careful => (kept.stands careful).move rfl fun lie path counts => ?_⟩
    obtain ⟨e, found, archive⟩ := lie path counts
    exact ⟨e, (spares path counts ⟨e, found, archive⟩).trans found, archive⟩
  | hostsBecame hosts =>
    simp only [deeds, Pipeline.entries, List.append_nil]
    exact ⟨kept.upright, fun careful => (kept.stands careful).move rfl id⟩

theorem Kept.history {p : Pipeline} {moves : List Move} (kept : p.Kept past g)
    (spared : p.Spared moves g) : ∃ g', p.Kept (past ++ p.history moves g) g' := by
  induction moves generalizing past g with
  | nil => exact ⟨g, by simpa [Pipeline.history] using kept⟩
  | cons m r ih => simpa [Pipeline.history] using ih (kept.move spared.1) spared.2

end Pipeline

/-- Connections are only ever opened with archives that are finished, and failing prepares leave the
archives in force, exactly if each prepare that fails once it has begun one was to build those in force
again, and no connection is opened before that is made good. -/
theorem Pipeline.upright_iff (p : Pipeline) {g : Progress} (unbuilt : g.built = ⟨none, none⟩)
    {moves : List Move} (spared : p.Spared moves g) :
    Upright (p.history moves g) ↔ Throughout p.Careful (p.history moves g) := by
  obtain ⟨_, kept⟩ := (p.kept_nil unbuilt).history spared
  simpa using kept.upright

/-- One prepare finds no sources. Another builds the archives, a third cannot make its directory, and a
fourth builds the first archive again, but may not read a source file. When that file is gone, a fifth
builds both, which a run then ships. -/
theorem Pipeline.upright_after_failed_prepares :
    let nodes : List Node := [⟨0, "a"⟩]
    let t : Topology := ⟨"a:27736", 1⟩
    let scenario : Scenario := ⟨.standard, 10, 100, .text "inputs"⟩
    let fleet : Fleet := ⟨nodes, t, scenario, nodes.map (Fleet.place t scenario · Fleet.firstSlot)⟩
    let p : Pipeline := ⟨⟨fleet, "dir", none⟩, ⟨⟨none, none, none⟩, []⟩, ".", false, .skipFailed⟩
    let g : Progress := { session := .new [] ⟨.empty, "/", "/", "/tmp", []⟩ "1" }
    let tree (sources : List (String × Files.Entry)) (work : List (String × Files.Entry)) : Files.Disk :=
      ⟨.directory [("src", .directory sources), ("Cargo.toml", .file ""), ("inputs", .empty),
        ("work", .directory work)], "/", "/", "/tmp", []⟩
    let inputs : String × Files.Entry := ("inputs.tar.gz", .archive [⟨"inputs", true, none⟩])
    let moves : List Move := [.prepare (.text "work"), .filesBecame (tree [] []),
      .prepare (.text "work"), .prepare (.text "Cargo.toml"),
      .filesBecame (tree [("main.rs", .closed)] [("source.tar.gz",
        .archive [⟨"src", true, none⟩, ⟨"Cargo.toml", false, some ""⟩]), inputs]),
      .prepare (.text "work"),
      .filesBecame (tree [] [("source.tar.gz", .torn [⟨"src", true, none⟩]), inputs]),
      .prepare (.text "work"), .run none .empty]
    Upright (p.history moves g) ∧ (∃ e ∈ p.history moves g, e.opened ≠ []) ∧
      (∃ e ∈ p.history moves g, p.Spoils e) ∧
      ((p.history moves g).map (·.outcome.isOk)) = [false, true, false, false, true, true] := by
  intro nodes t scenario fleet p g tree inputs moves
  have spared : p.Spared moves g := by
    have unbuilt : (p.move g moves[0]).built = ⟨none, none⟩ := by decide +kernel
    have built : (p.move (p.move (p.move (p.move g moves[0]) moves[1]) moves[2]) moves[3]).built =
        ⟨some "work/source.tar.gz", some "work/inputs.tar.gz"⟩ := by decide +kernel
    have same : (p.move (p.move (p.move (p.move (p.move (p.move g moves[0]) moves[1]) moves[2])
        moves[3]) moves[4]) moves[5]).built =
          ⟨some "work/source.tar.gz", some "work/inputs.tar.gz"⟩ := by decide +kernel
    refine ⟨trivial, fun path counts => ?_, trivial, trivial, fun path counts archive => ?_, trivial,
      fun path counts archive => ?_, trivial, trivial, trivial⟩
    · rw [show (p.move g (.prepare (.text "work"))).built = _ from unbuilt] at counts
      rcases counts with counts | counts <;> cases counts
    · replace counts : _ = some path ∨ _ = some path := built ▸ counts
      rcases counts with counts | counts <;> obtain rfl := Option.some.inj counts
      · exact archive.entry?_eq (by decide +kernel)
      · exact archive.entry?_eq (by decide +kernel)
    · replace counts : _ = some path ∨ _ = some path := same ▸ counts
      rcases counts with counts | counts <;> obtain rfl := Option.some.inj counts
      · exact archive.entry?_eq (by decide +kernel)
      · exact archive.entry?_eq (by decide +kernel)
  have careful : Throughout (fun past e => (p.Spoils e → e.after.built = e.before.built) ∧
      (p.isDamaged past → e.opened = [])) (p.history moves g) := by decide +kernel
  refine ⟨(p.upright_iff rfl spared).mpr fun i lt => ?_, by decide +kernel, by decide +kernel,
    by decide +kernel⟩
  exact ⟨(careful i lt).1, fun damaged opened => absurd ((careful i lt).2 damaged) opened⟩

/-- A directory is in the place of the second prepare's first archive. That prepare fails, and the run
ships the directory, though the first prepare has built archives. -/
theorem Pipeline.not_upright_after_blocked_prepare :
    let nodes : List Node := [⟨0, "node0"⟩]
    let t : Topology := ⟨"node0:27736", 1⟩
    let scenario : Scenario := ⟨.standard, 10, 100, .text "inputs"⟩
    let fleet : Fleet := ⟨nodes, t, scenario, nodes.map (Fleet.place t scenario · Fleet.firstSlot)⟩
    let p : Pipeline := ⟨⟨fleet, "dir", none⟩, ⟨⟨none, none, none⟩, []⟩, ".", false, .skipFailed⟩
    let root : Files.Entry := .directory [("src", .empty), ("Cargo.toml", .file ""),
      ("inputs", .empty), ("b", .directory [("source.tar.gz", .empty)])]
    let g : Progress := { session := .new [] ⟨root, "/", "/", "/tmp", []⟩ "1" }
    let moves : List Move := [.prepare (.text "a"), .prepare (.text "b"), .run none .empty]
    p.Spared moves g ∧ ¬ Upright (p.history moves g) ∧ ∃ e ∈ p.history moves g, e.opened ≠ [] ∧
      e.before.built.source.any e.before.session.disk.isDirectory := by
  intro nodes t scenario fleet p root g moves
  have spared : p.Spared moves g := ⟨trivial, trivial, trivial, trivial⟩
  obtain ⟨_, kept⟩ := (p.kept_nil (g := g) rfl).history spared
  have careless : ¬ Throughout (fun _ e => p.Spoils e → e.after.built = e.before.built)
      (p.history moves g) := by decide +kernel
  refine ⟨spared, fun upright => careless fun i lt => ?_, by decide +kernel⟩
  exact ((kept.upright.mp upright) i lt).again

end Flotilla.Deploy
