import Flotilla.Proofs.Deploy.Archives
import Flotilla.Proofs.Files.Folder

/-! A prepare taken apart: what it checks, the directory it makes, and the two archives it writes. It
succeeds exactly if the checks pass, the directory is made, there is a place for each archive, and all
that goes into it can be packed. -/
namespace Flotilla.Deploy
open Files (Disk join)

theorem exec_lift_run (x : Except Fault α) (g : Progress) : exec (Act.run (Run.lift x)) g = (x, g) := by
  rw [Deploy.exec_run, exec_lift]

namespace Pipeline

def check (p : Pipeline) (d : Disk) : Except Fault (List String) := do
  let files ← p.findPackageFiles d
  p.checkSources d files
  return files

theorem check_eq_ok_iff {p : Pipeline} {d : Disk} {files : List String} : p.check d = .ok files ↔
    p.findPackageFiles d = .ok files ∧ p.checkSources d files = .ok () := by
  rw [check]
  cases p.findPackageFiles d with
  | error f => exact iff_of_false nofun fun h => nomatch h.1
  | ok found =>
    cases passed : p.checkSources d found <;>
      simp only [passed, bind, Except.bind, pure, Except.pure] <;> grind

theorem exec_ready (p : Pipeline) (work : String) (g : Progress) :
    exec (p.ready (.text work)) g = match p.check g.session.disk with
      | .error f => (.error f, g)
      | .ok files => match g.session.disk.makeDirectories work with
        | (.error why, d) => (.error (.file why), g.onDisk d)
        | (.ok _, d) => (.ok (work, files), g.onDisk d) := by
  rw [ready, exec_bind_ok (exec_get g), check]
  dsimp only
  cases found : p.findPackageFiles g.session.disk with
  | error f => rw [exec_bind_error (exec_lift_run _ g)]; rfl
  | ok files =>
    rw [exec_bind_ok (exec_lift_run _ g)]
    cases checked : p.checkSources g.session.disk files with
    | error f => rw [exec_bind_error (exec_lift_run _ g)]; simp [checked, bind, Except.bind]
    | ok u =>
      have path : exec (Act.run (Run.lift (Disk.pathOf (.text work)))) g = (.ok work, g) :=
        exec_lift_run _ g
      rw [exec_bind_ok (exec_lift_run _ g), exec_bind_ok path, exec_bind, Deploy.exec_run, exec_changeDisk]
      simp only [checked, bind, Except.bind, pure, Except.pure]
      rcases g.session.disk.makeDirectories work with ⟨_ | _, d⟩ <;> rfl

theorem beside {parent : List String} {a b : String} (different : a ≠ b) :
    ¬ parent ++ [a] <+: parent ++ [b] := by
  rw [List.prefix_append_right_inj, List.cons_prefix_cons]
  exact fun same => different same.1

theorem archived_at?_of_apart {d : Disk} {location l : List String} (contents : List (String × String))
    (apart : ¬ location <+: l) (apart' : ¬ l <+: location) :
    (archived d location contents).root.at? l = d.root.at? l :=
  (Files.Entry.at?_put_of_apart apart apart').trans (Files.Entry.at?_put_of_apart apart apart')

theorem Place.archived {d : Disk} {path other last last' : String} {parent : List String}
    (place : d.Place path parent last) (contents : List (String × String))
    (place' : d.Place other parent last') (different : last ≠ last') :
    (archived d (parent ++ [last]) contents).Place other parent last' := by
  refine place'.stands (archived_keepsBut place contents).stands fun f there => ?_
  rw [archived_at?_of_apart contents (beside different) (beside (Ne.symm different))] at there
  exact place'.free f there

theorem exec_writeArchive_of_packs {d : Disk} {path last : String} {parent : List String}
    {contents : List (String × String)} (place : d.Place path parent last)
    (packs : (packing d (parent ++ [last]) contents).outcome = .ok ()) {g : Progress}
    (here : g.session.disk = d) : exec (writeArchive path contents) g =
      (.ok ⟨⟩, g.onDisk (archived d (parent ++ [last]) contents)) := by
  rw [exec_writeArchive_of_place place contents here, packs]
  rfl

/-- Whoever has written an archive had a place for it, and could pack all that goes into it. -/
theorem of_exec_writeArchive {path : String} {contents : List (String × String)} {g g' : Progress}
    (h : exec (writeArchive path contents) g = (.ok ⟨⟩, g')) :
    ∃ parent last, g.session.disk.Place path parent last ∧
      (packing g.session.disk (parent ++ [last]) contents).outcome = .ok () ∧
      g' = g.onDisk (archived g.session.disk (parent ++ [last]) contents) := by
  cases target : g.session.disk.fileTarget path with
  | error why =>
    rw [exec_writeArchive_of_barred target] at h
    cases h
  | ok l =>
    obtain ⟨parent, last, place, rfl⟩ := Files.Disk.place_of_fileTarget target
    rw [exec_writeArchive_of_place place contents rfl] at h
    obtain ⟨outcome, rfl⟩ := Prod.mk.inj h
    refine ⟨parent, last, place, ?_, rfl⟩
    cases came : (packing g.session.disk (parent ++ [last]) contents).outcome with
    | ok u => rfl
    | error why =>
      rw [came] at outcome
      cases outcome

def archivesIn (work : String) : Archives :=
  ⟨some (join work sourceArchive), some (join work inputsArchive)⟩

/-- The course of a prepare that succeeds: what it finds, and the files here after each step. -/
structure Course (p : Pipeline) (work : String) (d : Disk) where
  files : List String
  checked : p.check d = .ok files
  made : Disk
  makes : d.makeDirectories work = (.ok (), made)
  parent : List String
  last : String
  place : made.Place (join work sourceArchive) parent last
  packs : (packing made (parent ++ [last]) (p.sourceContents files)).outcome = .ok ()
  parent' : List String
  last' : String
  place' : (archived made (parent ++ [last]) (p.sourceContents files)).Place
    (join work inputsArchive) parent' last'
  packs' : (packing (archived made (parent ++ [last]) (p.sourceContents files)) (parent' ++ [last'])
    p.inputsContents).outcome = .ok ()

namespace Course
variable {p : Pipeline} {work : String} {d : Disk} (c : p.Course work d)

def shipped : Disk := archived c.made (c.parent ++ [c.last]) (p.sourceContents c.files)

def finished : Disk := archived c.shipped (c.parent' ++ [c.last']) p.inputsContents

theorem lieOn : (archivesIn work).LieOn c.finished := by
  have inputs := archived_found c.place' p.inputsContents
  rw [Files.Packing.entry_of_ok c.packs'] at inputs
  rintro path (counts | counts) <;> obtain rfl := Option.some.inj counts
  · have source := archived_found c.place (p.sourceContents c.files)
    rw [Files.Packing.entry_of_ok c.packs] at source
    have lies : c.shipped.HasArchive (join work sourceArchive) := ⟨_, source, rfl⟩
    refine lies.keeps (by rintro _ rfl; nofun) (archived_keepsBut c.place' p.inputsContents) ?_
    simp only [List.mem_singleton, forall_eq]
    refine ⟨_, archived_there c.place' p.inputsContents, ?_⟩
    rw [Files.Packing.entry_of_ok c.packs']
    rfl
  · exact ⟨_, inputs, rfl⟩

end Course

theorem exec_prepare_ok_iff {p : Pipeline} {work : String} {g g' : Progress} :
    exec (p.prepare (.text work)) g = (.ok ⟨⟩, g') ↔ ∃ c : p.Course work g.session.disk,
      g' = { g.onDisk c.finished with built := archivesIn work } := by
  rw [prepare, prepareIn, exec_bind, readyIn, exec_ready]
  cases checked : p.check g.session.disk with
  | error f =>
    constructor
    · intro h
      cases h
    · rintro ⟨c, -⟩
      cases checked.symm.trans c.checked
  | ok files =>
    dsimp only
    rcases makes : g.session.disk.makeDirectories work with ⟨why | u, made⟩
    · constructor
      · intro h
        cases h
      · rintro ⟨c, -⟩
        cases makes.symm.trans c.makes
    · dsimp only
      rw [buildSource, bind_assoc, exec_bind_ok (exec_modify _ _)]
      constructor
      · intro h
        obtain ⟨⟨⟩, g₁, wrote, h⟩ := of_exec_bind h
        obtain ⟨parent, last, place, packs, rfl⟩ := of_exec_writeArchive wrote
        rw [buildInputs, exec_bind_ok (exec_modify _ _)] at h
        obtain ⟨parent', last', place', packs', rfl⟩ := of_exec_writeArchive h
        exact ⟨⟨files, checked, made, makes, parent, last, place, packs, parent', last', place',
          packs'⟩, rfl⟩
      · rintro ⟨⟨files', checked', made', makes', parent, last, place, packs, parent', last', place',
          packs'⟩, rfl⟩
        obtain rfl := Except.ok.inj (checked'.symm.trans checked)
        obtain ⟨-, rfl⟩ := Prod.mk.inj (makes'.symm.trans makes)
        rw [exec_bind_ok (exec_writeArchive_of_packs place packs rfl), buildInputs,
          exec_bind_ok (exec_modify _ _)]
        exact exec_writeArchive_of_packs place' packs' rfl

end Pipeline
end Flotilla.Deploy
