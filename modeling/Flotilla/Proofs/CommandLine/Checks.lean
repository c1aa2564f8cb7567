import Flotilla.CommandLine.Program
import Flotilla.Proofs.Executor.Barrier

namespace Flotilla.CommandLine.Program
open Executor

/-- Whatever a check fails for, the action goes wrong and is not called off. -/
def Settles (x : Except Fault α) : Prop := ∀ f, x = .error f → isAborting f = false

namespace Settles

theorem ok (a : α) : Settles (.ok a) := nofun

theorem error {f : Fault} (h : isAborting f = false) : Settles (.error f : Except Fault α) := by
  rintro f' same
  rw [← Except.error.inj same, h]

theorem of_unwritten {x : Except Fault α} (h : ∀ f, x = .error f → IsUnwritten f) : Settles x := by
  intro f failed
  rcases h f failed with ⟨key, rfl⟩ | rfl <;> rfl

theorem ite {c : Prop} [Decidable c] {x y : Except Fault α} (hx : Settles x) (hy : Settles y) :
    Settles (if c then x else y) := by
  split
  · exact hx
  · exact hy

theorem bind {x : Except Fault α} {g : α → Except Fault β} (first : Settles x)
    (later : ∀ a, Settles (g a)) : Settles (x >>= g) := by
  cases x with
  | ok a => exact later a
  | error f => exact .error (first f rfl)

theorem map {x : Except Fault α} (h : Settles x) (g : α → β) : Settles (x.map g) := by
  cases x with
  | ok a => exact .ok _
  | error f => exact .error (h f rfl)

theorem foldlM {g : β → α → Except Fault β} (step : ∀ b a, Settles (g b a)) (xs : List α) (b : β) :
    Settles (xs.foldlM g b) := by
  induction xs generalizing b with
  | nil => exact .ok b
  | cons a r ih =>
    rw [List.foldlM_cons]
    exact (step b a).bind ih

end Settles

section
open Host.SshConfig

theorem settles_readLine (line : String) : Settles (readLine line) := by
  have setting (line : String) : Settles (readSetting line) := .ite (.error rfl) (.ok _)
  exact .ite (.ok _) (setting _)

theorem settles_readCriteriaFrom : ∀ words, Settles (readCriteriaFrom words)
  | [] => .ok _
  | [_] => .ite (.ok _) (.error rfl)
  | _ :: parameter :: r =>
    .ite (.bind (settles_readCriteriaFrom (parameter :: r)) fun _ => .ok _)
      (.bind (settles_readCriteriaFrom r) fun _ => .ok _)

theorem settles_readCriteria (text : String) : Settles (readCriteria text) := by
  have checked (cs : List Host.Criterion) : Settles (checkCriteria cs) :=
    .ite (.ok _) (.ite (.error rfl) (.ite (.error rfl) (.ok _)))
  unfold readCriteria
  split
  · exact .error rfl
  · exact (settles_readCriteriaFrom _).bind fun cs => (checked cs).bind fun _ => .ok _

theorem settles_addLine (blocks : Host.SshConfig) (line : String) : Settles (addLine blocks line) := by
  refine (settles_readLine line).bind fun l => ?_
  split
  · exact .ok _
  · next value =>
    refine .bind ?_ fun _ => .ok _
    unfold readPatterns
    split
    · exact .ok _
    · exact .error rfl
  · exact (settles_readCriteria _).bind fun _ => .ok _
  · split <;> exact .ok _

end

theorem settles_expand (d : Files.Disk) (given : Value) : Settles (d.expand given) := by
  have path : Settles (Files.Disk.pathOf given) := by
    unfold Files.Disk.pathOf
    split
    · exact .ok _
    · exact .error rfl
  exact path.bind fun _ => .ite (.error rfl) (.ok _)

theorem settles_checkReadable (d : Files.Disk) (use : String) (path : Value) :
    Settles (d.checkReadable use path) := by
  unfold Files.Disk.checkReadable
  split
  · exact .ite (.error rfl) (.ite (.error rfl) (.ite (.ok _) (.error rfl)))
  · exact .error rfl

theorem settles_readIdentity (d : Files.Disk) (given : Value) : Settles (readIdentity d given) := by
  refine .ite ?_ (.ok _)
  have readable := settles_checkReadable d "identity_file" given
  split
  · next f unreadable => exact .error (readable f unreadable)
  · exact .ok _

theorem settles_readConfig (d : Files.Disk) (given : Value) : Settles (readConfig d given) := by
  have load (path : String) : Settles (loadConfig d path) := by
    refine (settles_expand d _).bind fun path => .ite (.bind ?_ fun text => ?_) (.ok _)
    · cases d.read path with
      | ok text => exact .ok text
      | error why => exact .error rfl
    · exact .bind (.foldlM settles_addLine _ _) fun _ => .ok _
  refine .ite ?_ ?_
  · have readable := settles_checkReadable d "ssh_config" given
    split
    · next f unreadable => exact .error (readable f unreadable)
    · exact load _
  · split <;> first | exact load _ | exact .error rfl

end Flotilla.CommandLine.Program
