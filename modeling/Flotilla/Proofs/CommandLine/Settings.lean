import Flotilla.CommandLine.Program
import Flotilla.Proofs.Executor.Barrier

namespace Flotilla

namespace CommandLine.Program
open Executor

theorem exec_attempt (x : Run α) (catches : Fault → Bool) (recover : Fault → Run α) (s : Session) :
    exec (attempt x catches recover) s = match exec x s with
      | (.ok a, s') => (.ok a, s')
      | (.error f, s') => if catches f then exec (recover f) s' else (.error f, s') := by
  have caught : exec (attempt x catches recover) s = match exec x s with
      | (.ok a, s') => (.ok a, s')
      | (.error f, s') => exec (if catches f then recover f else throw f) s' := by
    unfold attempt exec
    simp only [ExceptT.run_tryCatch, StateT.run_bind]
    rcases (ExceptT.run x).run s with ⟨_ | _, s'⟩ <;> rfl
  rw [caught]
  split
  · rfl
  · split <;> rfl

theorem exec_attempt_ok {x : Run α} {catches : Fault → Bool} (recover : Fault → Fault) {s s' : Session}
    {a : α} (h : exec (attempt x catches fun f => throw (recover f)) s = (.ok a, s')) :
    exec x s = (.ok a, s') := by
  rw [exec_attempt] at h
  split at h
  · next taken => rw [taken, h]
  · split at h <;> cases h

def configValue (o : Options) (d : Files.Disk) : Except Fault Value :=
  (d.expand o.sshConfigFile).map fun path => if d.isPresent path then .text path else .null

def identityValue (o : Options) (d : Files.Disk) : Except Fault Value :=
  if o.identityFile.isTruthy then (d.expand o.identityFile).map .text else .ok .null

theorem exec_sshConfig (o : Options) (s : Session) :
    ∃ rs, exec (sshConfig o) s = (configValue o s.disk, told s rs) := by
  unfold sshConfig configValue
  rw [exec_bind_ok (exec_get s), exec_bind, exec_lift]
  cases s.disk.expand o.sshConfigFile with
  | error f => exact ⟨[], by rw [told_nil]; rfl⟩
  | ok path =>
    dsimp only [Except.map]
    by_cases present : s.disk.isPresent path
    · rw [if_pos present, if_pos present]
      exact ⟨[], by rw [told_nil]; rfl⟩
    · rw [if_neg present, if_neg present]
      exact ⟨[_], rfl⟩

theorem exec_identity (o : Options) (s : Session) :
    exec (identity o) s = (identityValue o s.disk, s) := by
  unfold identity identityValue
  split
  · rw [exec_bind_ok (exec_get s), exec_bind, exec_lift]
    cases s.disk.expand o.identityFile <;> rfl
  · rfl

theorem of_exec_executor {o : Options} {e : Executor} {s s' : Session}
    (made : exec (executor o) s = (.ok e, s')) :
    ∃ config key rs, configValue o s.disk = .ok config ∧ identityValue o s.disk = .ok key ∧
      readConfig s.disk config = .ok e.config ∧ readIdentity s.disk key = .ok e.access.identity ∧
      s' = told s rs := by
  obtain ⟨config, s₁, found, made⟩ := of_exec_bind
    (exec_attempt_ok (fun f => .misconfigured (.executor f.message)) made)
  obtain ⟨rs, looked⟩ := exec_sshConfig o s
  obtain ⟨configured, rfl⟩ := Prod.mk.inj (looked.symm.trans found)
  obtain ⟨key, s₂, found, made⟩ := of_exec_bind made
  obtain ⟨identified, rfl⟩ := Prod.mk.inj ((exec_identity o _).symm.trans found)
  obtain ⟨_, _, ⟨⟩, made⟩ := of_exec_bind made
  obtain ⟨given, rfl⟩ := Prod.mk.inj ((exec_lift _ _).symm.trans made)
  obtain ⟨_, readConfig, given⟩ := ok_of_bind given
  obtain ⟨_, readKey, ⟨⟩⟩ := ok_of_bind given
  exact ⟨config, key, rs, configured, identified, readConfig, readKey, rfl⟩

end CommandLine.Program
end Flotilla
