import Flotilla.Proofs.CommandLine.Ending

/-! What becomes of a report after the program. The directory of a job goes at the end if it is to be
cleaned up and there is a bucket, whether or not the store took the report; with no other copy of it
the report is lost then. -/
namespace Flotilla.CommandLine.Program
open Executor Files

theorem jobPath_ends {o : Options} {d : Disk} {stamp : String} (flat : '/' ∉ stamp.toList) :
    jobPath o d stamp ≠ "" ∧ (jobPath o d stamp).toList.getLast? ≠ some '/' ∧
      ∃ last, (Disk.names (jobPath o d stamp)).getLast? = some last ∧ Disk.isDots last = false := by
  obtain ⟨front, joined⟩ := join_ends d.temporary (o.jobId.shown ++ "-" ++ stamp)
  have chars : (jobPath o d stamp).toList = front ++ o.jobId.shown.toList ++ '-' :: stamp.toList :=
    joined.trans (by simp)
  refine ⟨fun empty => ?_, fun slash => ?_, ?_⟩
  · rw [empty] at chars
    simp at chars
  · rw [chars, List.getLast?_append_cons] at slash
    rcases List.mem_cons.mp (List.mem_of_getLast? slash) with dash | member
    · cases dash
    · exact flat member
  · obtain ⟨p, final, dash⟩ := Text.mem_getLast?_splitChars (c := '-') (by decide) _ flat
    have other (name : String) (clear : '-' ∉ name.toList) : String.ofList p ≠ name := by
      rintro rfl
      exact clear (by simpa using dash)
    refine ⟨String.ofList p, ?_, ?_⟩
    · rw [Disk.names, Text.splitOn, chars, List.getLast?_map, Option.mem_def.mp final]
      rfl
    · simp [Disk.isDots, other "" (by decide), other "." (by decide), other ".." (by decide)]

theorem entry?_remove_job {o : Options} {d₀ d : Disk} {stamp : String} (flat : '/' ∉ stamp.toList)
    {f : Entry} (there : d.entry? (join (jobPath o d₀ stamp) reportFile) = some f)
    (file : f.kind ≠ .directory) :
    ∃ l d', d.locate (jobPath o d₀ stamp) = .ok l ∧ d.remove (jobPath o d₀ stamp) = .ok d' ∧
      Disk.entry? d' (join (jobPath o d₀ stamp) reportFile) ≠ some f ∧
      ∀ path, Disk.entry? d' path = some f ↔ d.entry? path = some f ∧ d.Avoids path l := by
  obtain ⟨written, unfinished, last, final, proper⟩ := jobPath_ends (o := o) (d := d₀) flat
  obtain ⟨l', within, there⟩ := Disk.entry?_eq_some_iff.mp there
  obtain ⟨l, located, rfl⟩ :=
    Disk.locate_of_join written unfinished (by decide) (by decide) within
  obtain ⟨e, found, -⟩ : ∃ e, d.root.at? l = some e ∧ e.child? reportFile = some f := by
    rw [Entry.at?_concat] at there
    exact Option.bind_eq_some_iff.mp there
  have top := Disk.ne_nil_of_locate final proper located
  refine ⟨l, d.without l, located, by rw [Disk.remove, located]; rfl, fun still => ?_,
    fun path => Disk.entry?_without_iff found top file⟩
  obtain ⟨u, -, followed⟩ := ok_of_bind within
  exact ((Disk.entry?_without_iff found top file).mp still).2 _ List.prefix_rfl _ followed
    (List.prefix_append l [reportFile])

/-- The program has ended, by itself or with an error, after it wrote the report of a job. -/
structure Ended (o : Options) (job : String) (r : Report) (s : Session) (x : Except Fault Ending)
    (s' : Session) : Prop where
  inJob : Disk.entry? s'.disk (join job reportFile) = some (.file r.text)
  exitTasks : s'.exitTasks = s.exitTasks ++ leftOver o
  refusal : s'.storeRefusal = s.storeRefusal
  shipments : s'.shipments = s.shipments ++ if x.isOk then parcels o job else []

theorem ended_of_recorded {o : Options} {a : Action} {stamp job : String} {s t s' : Session}
    {r : Report} (recorded : Recorded o a stamp s t job r) {x : Except Fault Ending}
    (ended : exec (conclude o a job r) t = (x, s')) : Ended o job r s x s' := by
  obtain ⟨exitTasks, refusal, shipments⟩ := Session.Errands.mk.inj recorded.errands
  obtain ⟨d₀, put⟩ := recorded.file
  obtain ⟨rs, concluded⟩ := exec_conclude o a job r t
  obtain rfl := recorded.named
  rw [concluded] at ended
  split at ended
  · next d copy =>
    cases ended
    exact ⟨(reported_of_recorded recorded copy _ rs).inJob, exitTasks, refusal,
      congrArg (· ++ parcels o _) shipments⟩
  · cases ended
    exact ⟨Disk.entry?_write put (Entry.isPlain_file _), exitTasks, refusal,
      shipments.trans (List.append_nil _).symm⟩

theorem ended_of_written {arguments : List String} {o : Options}
    (read : Options.read arguments = .options o) {a : Action} (asked : o.action = some a)
    (onFleet : a ≠ .compose) {name stamp job : String} {r : Report} {s t s' : Session}
    (wrote : exec (written o a stamp) s = (.ok (some (job, r)), t)) {x : Except Fault Ending}
    (ended : exec (run name stamp arguments) s = (x, s')) : Ended o job r s x s' := by
  rw [run, read] at ended
  dsimp only at ended
  rw [runOptions_of_action asked onFleet, performed, exec_bind_ok wrote] at ended
  exact ended_of_recorded (recorded_of_written wrote) ended

theorem exec_atExit {o : Options} {s : Session} (left : s.exitTasks = leftOver o) (job : String) :
    (exec (atExit job) s).2.disk =
      if hasBucket o && o.cleanUp then (s.disk.remove job).toOption.getD s.disk else s.disk := by
  rw [atExit, exec_bind_ok (exec_get s), left, leftOver]
  split <;> rfl

/-- The report of a job is in the store, where a copy was asked for, or still with the job: the program
began in `s` and ended in `s'`, and doing what was left to do then led to `s''`. -/
inductive Kept (o : Options) (job : String) (r : Report) (s s' s'' : Session) : Prop
  | inStore (bucket : hasBucket o) (sent : s'.shipments = s.shipments ++ parcels o job)
      (taken : s'.storeRefusal = none)
      (held : Disk.entry? s'.disk (join job reportFile) = some (.file r.text))
  | asCopy (path : String) (asked : file? o.report = some path)
      (there : Disk.entry? s''.disk path = some (.file r.text))
  | inJob (there : Disk.entry? s''.disk (join job reportFile) = some (.file r.text))

theorem Ended.kept {o : Options} {s₀ s s' : Session} {stamp : String} {r : Report}
    {x : Except Fault Ending} (after : Ended o (jobPath o s₀.disk stamp) r s x s')
    (flat : '/' ∉ stamp.toList) (fresh : s.exitTasks = []) :
    Kept o (jobPath o s₀.disk stamp) r s s' (exec (atExit (jobPath o s₀.disk stamp)) s').2 ↔
      ¬ (hasBucket o ∧ o.cleanUp) ∨ (x.isOk ∧ s.storeRefusal = none) ∨
        ∃ path l, file? o.report = some path ∧ Disk.entry? s'.disk path = some (.file r.text) ∧
          s'.disk.locate (jobPath o s₀.disk stamp) = .ok l ∧ s'.disk.Avoids path l := by
  have left : s'.exitTasks = leftOver o := by rw [after.exitTasks, fresh, List.nil_append]
  have disk := exec_atExit left (jobPath o s₀.disk stamp)
  obtain ⟨l, d, located, removed, gone, stays⟩ := entry?_remove_job flat after.inJob nofun
  by_cases cleans : hasBucket o ∧ o.cleanUp
  · rw [if_pos (by simpa using cleans), removed] at disk
    change _ = d at disk
    simp only [not_true_eq_false, cleans, and_self, false_or]
    constructor
    · rintro (⟨-, sent, taken, -⟩ | ⟨path, asked, there⟩ | there)
      · refine .inl ⟨?_, after.refusal.symm.trans taken⟩
        by_contra failed
        rw [after.shipments, if_neg failed, parcels, if_pos cleans.1] at sent
        simp at sent
      · rw [disk, stays] at there
        exact .inr ⟨path, l, asked, there.1, located, there.2⟩
      · exact absurd (disk ▸ there) gone
    · rintro (⟨ok, accepts⟩ | ⟨path, l', asked, there, located', avoids⟩)
      · refine .inStore cleans.1 ?_ (after.refusal.trans accepts) after.inJob
        rw [after.shipments, if_pos ok]
      · obtain rfl := Except.ok.inj (located.symm.trans located')
        exact .asCopy path asked (disk ▸ (stays path).mpr ⟨there, avoids⟩)
  · rw [if_neg (by simpa using cleans)] at disk
    exact iff_of_true (.inJob (disk ▸ after.inJob)) (.inl cleans)

/-- A report that was written is kept if the directory of the job stays, or if the program came to ship
it and the store took it, or if there is a copy of it that is not found through that directory; and only
then. -/
theorem kept_iff {arguments : List String} {o : Options}
    (read : Options.read arguments = .options o) {a : Action} (asked : o.action = some a)
    (onFleet : a ≠ .compose) {name stamp job : String} (flat : '/' ∉ stamp.toList) {r : Report}
    {s t s' : Session} (fresh : s.exitTasks = [])
    (wrote : exec (written o a stamp) s = (.ok (some (job, r)), t)) {x : Except Fault Ending}
    (ended : exec (run name stamp arguments) s = (x, s')) :
    Kept o job r s s' (exec (atExit job) s').2 ↔
      ¬ (hasBucket o ∧ o.cleanUp) ∨ (x.isOk ∧ s.storeRefusal = none) ∨
        ∃ path l, file? o.report = some path ∧ Disk.entry? s'.disk path = some (.file r.text) ∧
          s'.disk.locate job = .ok l ∧ s'.disk.Avoids path l := by
  have after := ended_of_written read asked onFleet wrote ended
  obtain rfl := (recorded_of_written wrote).named
  exact after.kept flat fresh

theorem exists_written {o : Options} {a : Action} {stamp : String} {s : Session}
    (h : (exec (written o a stamp) s).1.toOption.any Option.isSome) :
    ∃ job r t, exec (written o a stamp) s = (.ok (some (job, r)), t) := by
  rcases ran : exec (written o a stamp) s with ⟨why | _ | ⟨job, r⟩, t⟩ <;> rw [ran] at h
  · cases h
  · cases h
  · exact ⟨job, r, t, rfl⟩

/-- The directory goes, and the report is in the store. -/
theorem kept_in_store :
    let arguments := ["status", "-n", "1", "--s3bucket", "b"]
    let o : Options := { action := some .status, fleetSize := .num (.int 1), bucket := some "b" }
    let tree : Entry := .directory [("tmp", .directory []), ("home", .directory [])]
    let s : Session := .new [] ⟨tree, "/home", "/home", "/tmp", []⟩ "1"
    Options.read arguments = .options o ∧ (hasBucket o ∧ o.cleanUp) ∧
      ∃ job r t, exec (written o .status "x1") s = (.ok (some (job, r)), t) ∧
        ∃ x s', exec (run "run.py" "x1" arguments) s = (x, s') ∧
          Kept o job r s s' (exec (atExit job) s').2 := by
  intro arguments o tree s
  have read : Options.read arguments = .options o := by decide +kernel
  have writes : (exec (written o .status "x1") s).1.toOption.any Option.isSome := by decide +kernel
  obtain ⟨job, r, t, wrote⟩ := exists_written writes
  obtain ⟨e, s', ended⟩ : ∃ e s', exec (run "run.py" "x1" arguments) s = (.ok e, s') :=
    exec_of_toBool (by decide +kernel)
  refine ⟨read, ⟨by decide, rfl⟩, job, r, t, wrote, .ok e, s', ended, ?_⟩
  exact (kept_iff read rfl nofun (by decide) rfl wrote ended).mpr (.inr (.inl ⟨rfl, rfl⟩))

/-- A store that refuses the report loses it. -/
theorem not_kept_refused :
    let arguments := ["status", "-n", "1", "--s3bucket", "b"]
    let o : Options := { action := some .status, fleetSize := .num (.int 1), bucket := some "b" }
    let tree : Entry := .directory [("tmp", .directory []), ("home", .directory [])]
    let s : Session :=
      { Session.new [] ⟨tree, "/home", "/home", "/tmp", []⟩ "1" with storeRefusal := some "denied" }
    Options.read arguments = .options o ∧
      ∃ job r t, exec (written o .status "x1") s = (.ok (some (job, r)), t) ∧
        ∃ x s', exec (run "run.py" "x1" arguments) s = (x, s') ∧
          ¬ Kept o job r s s' (exec (atExit job) s').2 := by
  intro arguments o tree s
  have read : Options.read arguments = .options o := by decide +kernel
  have writes : (exec (written o .status "x1") s).1.toOption.any Option.isSome := by decide +kernel
  obtain ⟨job, r, t, wrote⟩ := exists_written writes
  rcases ended : exec (run "run.py" "x1" arguments) s with ⟨x, s'⟩
  refine ⟨read, job, r, t, wrote, x, s', rfl, ?_⟩
  have after := ended_of_written read rfl nofun wrote ended
  obtain rfl := (recorded_of_written wrote).named
  rw [after.kept (by decide) rfl]
  rintro (stays | ⟨-, accepts⟩ | ⟨path, -, asked, -⟩)
  · exact stays ⟨by decide, rfl⟩
  · cases accepts
  · cases asked

end Flotilla.CommandLine.Program
