import Flotilla.Proofs.Deploy.Course
import Flotilla.Proofs.Files.Walk

/-! What becomes of the archives. A prepare that fails before it begins one has changed nothing but
that there may be more directories. From then on its archives count as built: where one cannot be
written to its end the prepare fails, they count as built all the same, and what was an archive there
before is none any more. -/
namespace Flotilla.Deploy
open Files (Disk)

def Progress.onDisk (g : Progress) (d : Disk) : Progress :=
  { g with session := { g.session with disk := d } }

/-- How the states before and after an act are related, however it ends. -/
def Act.Within (R : Progress → Progress → Prop) (x : Act α) : Prop := ∀ g, R g (exec x g).2

theorem Act.within_bind {R : Progress → Progress → Prop} (trans : ∀ {a b c}, R a b → R b c → R a c)
    {x : Act α} {f : α → Act β} (hx : x.Within R) (hf : ∀ a, (f a).Within R) :
    Act.Within R (x >>= f) := by
  intro g
  have first := hx g
  rw [exec_bind]
  rcases taken : exec x g with ⟨_ | a, g'⟩ <;> rw [taken] at first
  · exact first
  · exact trans first (hf a g')

theorem Act.within_run {R : Progress → Progress → Prop} {x : Run α}
    (h : ∀ g : Progress, R g { g with session := (exec x g.session).2 }) :
    Act.Within R (Act.run x) := by
  intro g
  rw [exec_run]
  exact h g

/-- Work here that begins no archive. -/
structure Progress.Clears (g g' : Progress) : Prop where
  trace : g'.session.trace = g.session.trace
  disk : g.session.disk.KeepsBut [] g'.session.disk
  built : g'.built = g.built

namespace Progress.Clears

theorem refl (g : Progress) : g.Clears g := ⟨rfl, .refl _, rfl⟩

theorem trans {g g' g'' : Progress} (a : g.Clears g') (b : g'.Clears g'') : g.Clears g'' :=
  ⟨b.trace.trans a.trace, a.disk.trans b.disk, b.built.trans a.built⟩

end Progress.Clears

theorem lift_clears (x : Except Fault α) : (Act.run (Run.lift x)).Within Progress.Clears :=
  Act.within_run fun g => by cases x <;> exact .refl g

theorem exec_changeDisk (f : Files.Disk → Except FileFault α × Files.Disk) (s : Session) :
    exec (Run.changeDisk f) s =
      ((f s.disk).1.mapError Fault.file, { s with disk := (f s.disk).2 }) := by
  rw [Run.changeDisk, exec_bind, exec_get]
  dsimp only
  rcases f s.disk with ⟨_ | _, d⟩ <;> rfl

theorem exec_replaceDisk (f : Files.Disk → Except FileFault Files.Disk) (s : Session) :
    exec (Run.replaceDisk f) s = match f s.disk with
      | .ok d => (.ok ⟨⟩, { s with disk := d })
      | .error why => (.error (.file why), s) := by
  rw [Run.replaceDisk, exec_changeDisk]
  cases f s.disk <;> rfl

theorem exec_writeFile (path : String) (e : Files.Entry) (s : Session) :
    exec (Run.writeFile path e) s = match s.disk.write path e with
      | .ok d => (.ok ⟨⟩, { s with disk := d })
      | .error why => (.error (.file why), s) := exec_replaceDisk (·.write path e) s

theorem makeDirectories_clears (path : String) :
    (Act.run (Run.changeDisk fun d => d.makeDirectories path)).Within Progress.Clears :=
  Act.within_run fun g => by
    rw [exec_changeDisk]
    exact ⟨rfl, Files.Disk.makeDirectories_keeps g.session.disk path, rfl⟩

theorem makeScratch_clears : (Act.run Scratch.make).Within Progress.Clears :=
  Act.within_run fun g => by
    have keeps := Files.Disk.makeDirectories_keeps g.session.disk (Scratch.path g.session)
    rw [Scratch.make, exec_bind_ok (exec_get g.session), exec_bind, exec_changeDisk]
    rcases taken : g.session.disk.makeDirectories (Scratch.path g.session) with ⟨_ | _, d⟩ <;>
      rw [taken] at keeps <;> exact ⟨rfl, keeps, rfl⟩

namespace Pipeline

theorem ready_clears (p : Pipeline) (directory : Value) :
    (p.ready directory).Within Progress.Clears := by
  refine Act.within_bind .trans (fun g => .refl g) fun g => ?_
  refine Act.within_bind .trans (lift_clears _) fun packageFiles => ?_
  refine Act.within_bind .trans (lift_clears _) fun _ => ?_
  refine Act.within_bind .trans (lift_clears _) fun path => ?_
  exact Act.within_bind .trans (makeDirectories_clears path) fun _ g => .refl g

theorem readyIn_clears (p : Pipeline) (w : Workspace) : (p.readyIn w).Within Progress.Clears := by
  cases w with
  | given directory => exact p.ready_clears directory
  | scratch =>
    refine Act.within_bind .trans makeScratch_clears fun directory => ?_
    exact Act.within_bind .trans (Act.within_run fun g => ⟨rfl, .refl _, rfl⟩)
      fun _ => p.ready_clears _

def begun (d : Disk) (location : List String) : Disk := d.put location (.torn [])

def packing (d : Disk) (location : List String) (contents : List (String × String)) : Files.Packing :=
  .all (contents.map fun c => (begun d location).pack location c.1 c.2)

/-- The files here once an archive is written at a location, be it to its end or not. -/
def archived (d : Disk) (location : List String) (contents : List (String × String)) : Disk :=
  (begun d location).put location (packing d location contents).entry

section
variable {d : Disk} {path : String} {parent : List String} {last : String}
  (place : d.Place path parent last) (contents : List (String × String))
include place

theorem begun_place : (begun d (parent ++ [last])).Place path parent last :=
  (place.write (Files.Entry.isPlain_torn [])).2.1

theorem archived_place : (archived d (parent ++ [last]) contents).Place path parent last :=
  ((begun_place place).write (Files.Packing.isPlain_entry _)).2.1

theorem archived_keepsBut :
    d.KeepsBut [parent ++ [last]] (archived d (parent ++ [last]) contents) :=
  (place.put_keepsBut.trans (begun_place place).put_keepsBut).mono (by simp)

theorem archived_there : (archived d (parent ++ [last]) contents).root.at? (parent ++ [last]) =
    some (packing d (parent ++ [last]) contents).entry := by
  obtain ⟨e, found, -⟩ := (begun_place place).above
  exact Files.Entry.at?_put found

theorem archived_located :
    (archived d (parent ++ [last]) contents).locate path = .ok (parent ++ [last]) :=
  (archived_place place contents).locate (by rw [archived_there place]; rfl)

theorem archived_found : Disk.entry? (archived d (parent ++ [last]) contents) path =
    some (packing d (parent ++ [last]) contents).entry :=
  Disk.entry?_eq_some_iff.mpr ⟨_, archived_located place contents, archived_there place contents⟩

theorem exec_writeArchive_of_place {g : Progress} (here : g.session.disk = d) :
    exec (writeArchive path contents) g =
      ((packing d (parent ++ [last]) contents).outcome.mapError .file,
        g.onDisk (archived d (parent ++ [last]) contents)) := by
  have place' := begun_place place
  rw [writeArchive, Deploy.exec_run, exec_bind, exec_writeFile, here,
    (place.write (Files.Entry.isPlain_torn [])).1]
  dsimp only
  rw [exec_bind_ok (exec_get _), exec_bind, exec_writeFile]
  dsimp only
  rw [packed, show d.put (parent ++ [last]) (.torn []) = begun d (parent ++ [last]) from rfl,
    place'.fileTarget]
  dsimp only [Except.toOption, Option.getD_some]
  rw [(place'.write (Files.Packing.isPlain_entry _)).1]
  dsimp only
  rw [exec_lift]
  rfl

end

theorem exec_writeArchive_of_barred {path : String} {g : Progress} {why : FileFault}
    (barred : g.session.disk.fileTarget path = .error why) (contents : List (String × String)) :
    exec (writeArchive path contents) g = (.error (.file why), g) := by
  rw [writeArchive, Deploy.exec_run, exec_bind, exec_writeFile, Disk.write, barred]
  rfl

end Pipeline

def Archives.All (built : Archives) (P : String → Prop) : Prop :=
  ∀ path, built.source = some path ∨ built.inputs = some path → P path

/-- Finished archives lie where the paths that count as built lead. -/
def Archives.LieOn (built : Archives) (d : Disk) : Prop := built.All d.HasArchive

theorem Archives.LieOn.keeps {built : Archives} {d d' : Disk} {changed : List (List String)}
    (h : built.LieOn d) (same : d.KeepsBut changed d')
    (become : ∀ l ∈ changed, ∃ e, d'.root.at? l = some e ∧ e.kind = .archive) : built.LieOn d' :=
  fun path counts => (h path counts).keeps (by rintro _ rfl; nofun) same become

theorem Archives.LieOn.isArchive {built : Archives} {d : Disk} {path : String} {l : List String}
    {e : Files.Entry} (h : built.LieOn d) (counts : built.source = some path ∨ built.inputs = some path)
    (there : d.HasAt path l e) : e.kind = .archive := by
  obtain ⟨e', found, archive⟩ := h path counts
  obtain rfl := Option.some.inj (found.symm.trans there.leads)
  exact archive

/-- What a prepare may come to: it fails and has begun nothing, or both archives are built, or one of
them is not written to its end. In the last case other archives count as built than before, unless those
that did lay in the same directory; then one of them is torn. -/
inductive Prepared (begun : Bool) (g g' : Progress) : Except Fault Unit → Prop
  | unbegun (f : Fault) : begun = false → g.Clears g' → Prepared begun g g' (.error f)
  | done : begun → g'.built.source.isSome → g'.built.inputs.isSome →
      g'.built.LieOn g'.session.disk → Prepared begun g g' (.ok ⟨⟩)
  | spoilt (f : Fault) : begun → (g'.built = g.built → g.built.LieOn g.session.disk →
      ¬ g.built.LieOn g'.session.disk) → Prepared begun g g' (.error f)

inductive Written (path : String) (g g' : Progress) : Except Fault Unit → Prop
  | done {l : List String} {e : Files.Entry} : g.session.disk.KeepsBut [l] g'.session.disk →
      g'.session.disk.HasAt path l e → e.kind = .archive → Written path g g' (.ok ⟨⟩)
  | torn {l : List String} {e : Files.Entry} (f : Fault) : g.session.disk.KeepsBut [l] g'.session.disk →
      g'.session.disk.HasAt path l e → e.kind = .torn → Written path g g' (.error f)
  | barred (f : Fault) : ¬ g.session.disk.HasBegun path → g' = g → Written path g g' (.error f)

namespace Pipeline

theorem exec_writeArchive (path : String) (contents : List (String × String)) (g : Progress) :
    ∃ x g', exec (writeArchive path contents) g = (x, g') ∧ g'.session.trace = g.session.trace ∧
      g'.built = g.built ∧ Written path g g' x := by
  cases target : g.session.disk.fileTarget path with
  | error why =>
    refine ⟨_, _, exec_writeArchive_of_barred target contents, rfl, rfl, .barred _ ?_ rfl⟩
    rintro ⟨e, found, kind⟩
    have plain : e.IsPlain := by rcases kind with kind | kind <;> constructor <;> simp [kind]
    obtain ⟨parent, last, place⟩ := Disk.place_of_entry? found plain
    cases target.symm.trans place.fileTarget
  | ok l =>
    obtain ⟨parent, last, place, rfl⟩ := Disk.place_of_fileTarget target
    have keeps := archived_keepsBut place contents
    have lies : (archived g.session.disk (parent ++ [last]) contents).HasAt path (parent ++ [last]) _ :=
      ⟨archived_located place contents, archived_there place contents⟩
    refine ⟨_, _, exec_writeArchive_of_place place contents rfl, rfl, rfl, ?_⟩
    cases came : (packing g.session.disk (parent ++ [last]) contents).outcome with
    | ok u =>
      rw [Files.Packing.entry_of_ok came] at lies
      exact .done keeps lies rfl
    | error why =>
      rw [Files.Packing.entry_of_error came] at lies
      exact .torn _ keeps lies rfl

theorem exec_prepareIn (p : Pipeline) (w : Workspace) (g : Progress) :
    ∃ x g', exec (p.prepareIn w) g = (x, g') ∧ g'.session.trace = g.session.trace ∧
      Prepared (exec (p.readyIn w) g).1.isOk g g' x := by
  have cleared := p.readyIn_clears w g
  rw [prepareIn, exec_bind]
  generalize exec (p.readyIn w) g = taken at cleared ⊢
  rcases taken with ⟨f | ⟨directory, packageFiles⟩, g₁⟩
  · exact ⟨_, _, rfl, cleared.trace, .unbegun f rfl cleared⟩
  dsimp only at cleared ⊢
  rw [buildSource, bind_assoc, exec_bind_ok (exec_modify _ _), exec_bind]
  obtain ⟨x₂, g₂, wrote, trace, built, source⟩ := exec_writeArchive
    (Files.join directory sourceArchive) (p.sourceContents packageFiles)
    { g₁ with built := { g₁.built with source := some (Files.join directory sourceArchive) } }
  rw [wrote]
  -- Archives that count already, and go on to count, are written where they lie.
  have counts (same : g₂.built = g.built) : g.built.source = some (Files.join directory sourceArchive) := by
    rw [← same, built]
  cases source with
  | barred f free same =>
    refine ⟨_, _, rfl, trace.trans cleared.trace, .spoilt f rfl fun same lie => ?_⟩
    exact absurd (lie.keeps cleared.disk (by simp) _ (.inl (counts same))).hasBegun free
  | torn f keeps lies kind =>
    refine ⟨_, _, rfl, trace.trans cleared.trace, .spoilt f rfl fun same _ lie => ?_⟩
    cases kind.symm.trans (lie.isArchive (.inl (counts same)) lies)
  | done keeps lies kind =>
    dsimp only
    rw [buildInputs, exec_bind_ok (exec_modify _ _)]
    obtain ⟨x₃, g₃, wrote', trace', built', inputs⟩ := exec_writeArchive
      (Files.join directory inputsArchive) p.inputsContents
      { g₂ with built := { g₂.built with inputs := some (Files.join directory inputsArchive) } }
    rw [wrote']
    have traces := trace'.trans (trace.trans cleared.trace)
    have counts' (same : g₃.built = g.built) :
        g.built.inputs = some (Files.join directory inputsArchive) := by
      rw [← same, built']
    cases inputs with
    | barred f free same =>
      refine ⟨_, _, rfl, traces, .spoilt f rfl fun same lie => ?_⟩
      have lie := lie.keeps (cleared.disk.trans keeps) (by simpa using ⟨_, lies.found, kind⟩)
      exact absurd (lie _ (.inr (counts' same))).hasBegun free
    | torn f keeps' lies' kind' =>
      refine ⟨_, _, rfl, traces, .spoilt f rfl fun same _ lie => ?_⟩
      cases kind'.symm.trans (lie.isArchive (.inr (counts' same)) lies')
    | done keeps' lies' kind' =>
      refine ⟨_, _, rfl, traces, .done rfl ?_ ?_ fun path counts => ?_⟩
      · rw [built', built]; rfl
      · rw [built']; rfl
      · rw [built', built] at counts
        rcases counts with same | same <;> obtain rfl := Option.some.inj same
        · have there : Disk.HasArchive _ _ := ⟨_, lies.leads, kind⟩
          exact there.keeps (by rintro _ rfl; nofun) keeps' (by simpa using ⟨_, lies'.found, kind'⟩)
        · exact ⟨_, lies'.leads, kind'⟩

end Pipeline

/-- The archives and the files here stay as they are. -/
structure Progress.Reaches (g g' : Progress) : Prop where
  steady : g.session.Steady g'.session
  built : g'.built = g.built

namespace Progress.Reaches

theorem refl (g : Progress) : g.Reaches g := ⟨.refl _, rfl⟩

theorem trans {g g' g'' : Progress} (a : g.Reaches g') (b : g'.Reaches g'') : g.Reaches g'' :=
  ⟨a.steady.trans b.steady, b.built.trans a.built⟩

end Progress.Reaches

namespace Pipeline

theorem log_reaches (r : Log.Record) : (log r).Within Progress.Reaches := fun g => by
  rw [exec_log]
  exact ⟨Session.note_steady _ _ _, rfl⟩

theorem leaveOut_reaches (s : Step) (skipped : List String) :
    (leaveOut s skipped).Within Progress.Reaches := by
  unfold leaveOut
  split
  · exact Act.within_bind .trans (log_reaches _) fun _ g => ⟨.refl _, rfl⟩
  · exact fun g => .refl g

theorem takePart_reaches (p : Pipeline) (active : List Node) (s : Step) :
    (p.takePart active s).Within Progress.Reaches := by
  unfold takePart
  refine Act.within_bind .trans (log_reaches _) fun _ => ?_
  refine Act.within_bind .trans (fun g => .refl g) fun g => ?_
  refine Act.within_bind .trans (Act.within_run fun g => ⟨?_, rfl⟩) fun results => ?_
  · refine Executor.steady_bind ?_ fun tasks s' => p.executor.execute_steady _ tasks s'
    generalize Executor.fleetTasks active _ = tasks
    cases tasks <;> exact .refl _
  · refine Act.within_bind .trans (fun g => ⟨.refl _, rfl⟩) fun _ => ?_
    dsimp only
    split
    · exact Act.within_bind .trans (log_reaches _) fun _ g => .refl g
    · exact fun g => .refl g

theorem runSteps_reaches (p : Pipeline) (excluded : List String) (steps : List Step) :
    (p.runSteps excluded steps).Within Progress.Reaches := by
  induction steps generalizing excluded with
  | nil => exact fun g => .refl g
  | cons s r ih =>
    refine Act.within_bind .trans ?_ fun failed => ih _
    exact Act.within_bind .trans (leaveOut_reaches s _) fun _ => p.takePart_reaches _ s

end Pipeline
end Flotilla.Deploy
