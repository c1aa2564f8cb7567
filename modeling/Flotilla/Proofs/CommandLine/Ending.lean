import Flotilla.Proofs.CommandLine.Action
import Flotilla.Proofs.Files.Written

/-! How the program ends. Either it has written a report, and its code says whether an outcome in there
is a failure, whatever the store makes of the report; or there is none, and then nothing has passed
over connections and nothing was written. -/
namespace Flotilla

namespace Report

def statusOf : Value → Option String
  | .map fields => match fields.lookup "status" with
    | some (.text s) => some s
    | _ => none
  | _ => none

def statuses : Value → List String
  | .map stages => stages.flatMap fun e => match e.2 with
    | .list outcomes => outcomes.filterMap statusOf
    | _ => []
  | _ => []

theorem statuses_document (r : Report) : statuses r.document = r.outcomes.map (·.status.name) := by
  have single (o : Outcome) : statusOf o.document = some o.status.name := rfl
  rw [document, statuses, outcomes, Table.values, List.flatMap_map, List.flatMap_map, List.map_flatMap]
  refine List.flatMap_congr fun e _ => ?_
  dsimp only
  rw [List.filterMap_map]
  simp [single]

theorem failed_mem_statuses_iff (r : Report) : "failed" ∈ statuses r.document ↔ ¬ r.isOk := by
  have name (s : Status) : s.name = "failed" ↔ s = .failed := by cases s <;> decide
  rw [statuses_document, List.mem_map, isOk, failures, failuresOf, List.isEmpty_iff,
    List.filter_eq_nil_iff]
  simp [name, outcomesOf]

end Report

namespace CommandLine.Program
open Executor

theorem runOptions_of_action {o : Options} {a : Action} (asked : o.action = some a)
    (onFleet : a ≠ .compose) (name stamp : String) : runOptions o name stamp = performed o a stamp := by
  rw [runOptions, asked]
  cases a with
  | compose => exact absurd rfl onFleet
  | _ => rfl

theorem of_exec_setUp {o : Options} {s t : Session} (h : exec (setUp o) s = (.ok ⟨⟩, t)) :
    ∃ d, t = { s with threshold := o.logLevel, disk := d } ∧ d.temporary = s.disk.temporary := by
  have opened : exec (openLog o) s = (.ok ⟨⟩, t) := by
    rw [setUp, exec_attempt] at h
    split at h
    · next opened => rw [opened, h]
    · cases h
  rw [openLog, exec_bind_ok (exec_modify _ s)] at opened
  split at opened
  · cases opened
    exact ⟨s.disk, rfl, rfl⟩
  · rw [exec_bind_ok (exec_get _)] at opened
    dsimp only at opened
    split at opened
    · cases opened
    · split at opened
      · cases opened
        exact ⟨s.disk, rfl, rfl⟩
      · rw [Deploy.exec_writeFile] at opened
        split at opened
        · next d wrote =>
          cases opened
          obtain ⟨parent, last, -, rfl⟩ := Files.Disk.place_of_write wrote
          exact ⟨_, rfl, rfl⟩
        · cases opened

theorem exec_scenario (o : Options) (s : Session) :
    exec (scenario o) s = match fleet o s.objects with
      | .ok f => (.ok (some f), s)
      | .error why =>
        if isMisconfigured why then
          (.ok none, told s [Log.error s!"Invalid scenario: {why.message}"])
        else (.error why, s) := by
  rw [scenario, exec_attempt, exec_bind_ok (exec_get s), exec_bind, exec_lift]
  cases fleet o s.objects <;> rfl

theorem exec_makeJob (o : Options) (stamp : String) (s : Session) :
    exec (makeJob o stamp) s = match s.disk.makeDirectory (jobPath o s.disk stamp) with
      | .ok d => (.ok (jobPath o s.disk stamp), { s with disk := d })
      | .error why => (.error (.file why), s) := by
  rw [makeJob, exec_bind_ok (exec_get s), exec_bind, Deploy.exec_replaceDisk]
  cases s.disk.makeDirectory (jobPath o s.disk stamp) <;> rfl

theorem exec_forM_log (rs : List Log.Record) (s : Session) :
    exec (rs.forM log) s = (.ok ⟨⟩, told s rs) := by
  induction rs generalizing s with
  | nil => exact congrArg _ (told_nil s).symm
  | cons r rs ih =>
    have first : exec (log r) s = (.ok ⟨⟩, told s [r]) := rfl
    rw [List.forM_eq_forM, List.forM_cons, exec_bind_ok first]
    exact (ih _).trans (by rw [told_told]; rfl)

def leftOver (o : Options) : List ExitTask := if hasBucket o && o.cleanUp then [.removeJob] else []

theorem of_exec_written {o : Options} {a : Action} {stamp : String} {s s' : Session}
    {x : Option (String × Report)} (h : exec (written o a stamp) s = (.ok x, s')) :
    ∃ t, exec (setUp o) s = (.ok ⟨⟩, t) ∧
      ((x = none ∧ ∃ rs, s' = told t rs) ∨
        ∃ f d, fleet o s.objects = .ok f ∧ t.disk.makeDirectory (jobPath o s.disk stamp) = .ok d ∧
          exec (reported o a f (jobPath o s.disk stamp))
            { t with disk := d, exitTasks := t.exitTasks ++ leftOver o } = (.ok x, s')) := by
  obtain ⟨⟨⟩, t, ready, h⟩ := of_exec_bind h
  obtain ⟨y, t₁, described, h⟩ := of_exec_bind h
  refine ⟨t, ready, ?_⟩
  rw [exec_scenario] at described
  split at described
  · next f resolved =>
    cases described
    obtain ⟨d₀, rfl, temporary⟩ := of_exec_setUp ready
    have path : jobPath o d₀ stamp = jobPath o s.disk stamp := by rw [jobPath, jobPath, temporary]
    obtain ⟨job, t₂, made, h⟩ := of_exec_bind h
    rw [exec_makeJob] at made
    split at made
    · next d new =>
      cases made
      rw [path] at h new
      refine .inr ⟨f, d, resolved, new, ?_⟩
      rw [leftOver]
      by_cases left : hasBucket o && o.cleanUp
      · rw [if_pos left] at h ⊢
        rwa [exec_bind_ok (exec_modify _ _)] at h
      · rw [if_neg left] at h ⊢
        rwa [List.append_nil]
    · cases made
  · next why _ =>
    split at described
    · cases described
      cases h
      exact .inl ⟨rfl, [_], rfl⟩
    · cases described

theorem of_exec_reported {o : Options} {a : Action} {f : Fleet} {job : String} {s s' : Session}
    {x : Option (String × Report)} (h : exec (reported o a f job) s = (.ok x, s')) :
    (x = none ∧ ∃ rs, s' = told s rs) ∨
      ∃ r t d, x = some (job, r) ∧ exec (act o a f job) s = (.ok (some r), t) ∧
        t.disk.write (Files.join job reportFile) (.file r.text) = .ok d ∧
        s' = { told t r.summary with disk := d } := by
  obtain ⟨y, t, acted, h⟩ := of_exec_bind h
  cases y with
  | none =>
    cases h
    exact .inl ⟨rfl, told_of_act acted⟩
  | some r =>
    dsimp only at h
    rw [exec_bind_ok (exec_forM_log _ _)] at h
    obtain ⟨⟨⟩, t', wrote, h⟩ := of_exec_bind h
    rw [Deploy.exec_writeFile] at wrote
    split at wrote
    · next d put =>
      cases wrote
      cases h
      exact .inr ⟨r, t, d, rfl, acted, put, rfl⟩
    · cases wrote

/-- Nothing has passed over connections, and nothing was written but the log; at most there is a new
directory for the job. -/
structure CalledOff (o : Options) (stamp : String) (s s' : Session) : Prop where
  trace : s'.trace = s.trace
  attempts : s'.attempts = s.attempts
  shipments : s'.shipments = s.shipments
  disk : ∃ t, exec (setUp o) s = (.ok ⟨⟩, t) ∧
    (s'.disk = t.disk ∨ t.disk.makeDirectory (jobPath o s.disk stamp) = .ok s'.disk)

theorem calledOff_of_written {o : Options} {a : Action} {stamp : String} {s s' : Session}
    (h : exec (written o a stamp) s = (.ok none, s')) : CalledOff o stamp s s' := by
  obtain ⟨t, ready, early | ⟨f, d, -, new, ended⟩⟩ := of_exec_written h
  · obtain ⟨-, rs, rfl⟩ := early
    obtain ⟨d₀, rfl, -⟩ := of_exec_setUp ready
    exact ⟨rfl, rfl, rfl, _, ready, .inl rfl⟩
  · rcases of_exec_reported ended with ⟨-, rs, rfl⟩ | ⟨r, -, -, made, -⟩
    · obtain ⟨d₀, rfl, -⟩ := of_exec_setUp ready
      exact ⟨rfl, rfl, rfl, _, ready, .inr new⟩
    · cases made

/-- What the action of a job came to on the hosts of the session: the report `r`, and all that has
passed over connections. -/
def Acted (o : Options) (a : Action) (job : String) (r : Report) (s s' : Session) : Prop :=
  ∃ f t t', fleet o s.objects = .ok f ∧ t.hosts = s.hosts ∧ t.trace = s.trace ∧
    exec (act o a f job) t = (.ok (some r), t') ∧ s'.trace = t'.trace

/-- The report `r` of an action is in the directory of its job. -/
structure Recorded (o : Options) (a : Action) (stamp : String) (s s' : Session) (job : String)
    (r : Report) : Prop where
  named : job = jobPath o s.disk stamp
  acted : Acted o a job r s s'
  file : ∃ d : Files.Disk, d.write (Files.join job reportFile) (.file r.text) = .ok s'.disk
  errands : s'.errands = { s.errands with exitTasks := s.exitTasks ++ leftOver o }

theorem recorded_of_written {o : Options} {a : Action} {stamp : String} {s s' : Session} {job : String}
    {r : Report} (h : exec (written o a stamp) s = (.ok (some (job, r)), s')) :
    Recorded o a stamp s s' job r := by
  obtain ⟨t, ready, early | ⟨f, d, resolved, -, ended⟩⟩ := of_exec_written h
  · cases early.1
  · rcases of_exec_reported ended with ⟨missing, -⟩ | ⟨r', t', d', same, acted, put, rfl⟩
    · cases missing
    · cases same
      obtain ⟨d₀, rfl, -⟩ := of_exec_setUp ready
      have left := congrArg (Session.errands ·.2) acted
      refine ⟨rfl, ⟨f, _, t', resolved, ?_, ?_, acted, rfl⟩, ⟨t'.disk, put⟩,
        left.symm.trans (errands_act ..)⟩ <;> rfl

def copied (o : Options) (r : Report) (d : Files.Disk) : Except FileFault Files.Disk :=
  match file? o.report with
  | some path => d.write path (.file r.text)
  | none => .ok d

def parcels (o : Options) (job : String) : List Shipment :=
  if hasBucket o then
    [⟨Files.join job reportFile, o.bucket.getD "", Files.baseName job ++ "/" ++ reportFile⟩]
  else []

theorem exec_ship (bucket file key : String) (s : Session) :
    ∃ rs, exec (ship bucket file key) s =
      (.ok ⟨⟩, told { s with shipments := s.shipments ++ [⟨file, bucket, key⟩] } rs) := by
  rw [ship, exec_bind_ok (exec_modify _ s), exec_bind_ok (exec_get _)]
  dsimp only
  split
  · exact ⟨[_], rfl⟩
  · exact ⟨[_] ++ [_], by rw [← told_told]; rfl⟩

theorem exec_copyOut (o : Options) (r : Report) (s : Session) :
    exec (copyOut o r) s = match copied o r s.disk with
      | .ok d => (.ok ⟨⟩, { s with disk := d })
      | .error why => (.error (.file why), s) := by
  unfold copyOut copied
  cases file? o.report with
  | none => rfl
  | some path => exact Deploy.exec_writeFile path _ s

theorem exec_handOver (o : Options) (job : String) (s : Session) :
    ∃ rs, exec (handOver o job) s =
      (.ok ⟨⟩, told { s with shipments := s.shipments ++ parcels o job } rs) := by
  rw [handOver, parcels]
  split
  · exact exec_ship ..
  · exact ⟨[_], by rw [List.append_nil]; rfl⟩

theorem exec_verdict (a : Action) (r : Report) (s : Session) :
    ∃ rs, exec (verdict a r) s = (.ok (finished (if r.isOk then 0 else 1)), told s rs) := by
  rw [verdict]
  split
  · exact ⟨[], by rw [told_nil]; rfl⟩
  · exact ⟨[_], rfl⟩

theorem exec_conclude (o : Options) (a : Action) (job : String) (r : Report) (s : Session) :
    ∃ rs, exec (conclude o a job r) s = match copied o r s.disk with
      | .ok d => (.ok (finished (if r.isOk then 0 else 1)),
          told { s with disk := d, shipments := s.shipments ++ parcels o job } rs)
      | .error why => (.error (.file why), s) := by
  have copies := exec_copyOut o r s
  cases copy : copied o r s.disk with
  | error why =>
    rw [copy] at copies
    exact ⟨[], exec_bind_error copies _⟩
  | ok d =>
    rw [copy] at copies
    obtain ⟨rs, handed⟩ := exec_handOver o job { s with disk := d }
    obtain ⟨rs', ended⟩ := exec_verdict a r
      (told { s with disk := d, shipments := s.shipments ++ parcels o job } rs)
    refine ⟨rs ++ rs', ?_⟩
    rw [conclude, exec_bind_ok copies, exec_bind_ok handed, ended, told_told]

/-- The report `r` of the action is in the directory of the job and wherever else it was asked for. -/
structure Reported (o : Options) (a : Action) (stamp : String) (s s' : Session) (r : Report) :
    Prop where
  acted : Acted o a (jobPath o s.disk stamp) r s s'
  inJob : Files.Disk.entry? s'.disk (Files.join (jobPath o s.disk stamp) reportFile) = some (.file r.text)
  copied : ∀ path, file? o.report = some path → Files.Disk.entry? s'.disk path = some (.file r.text)

theorem reported_of_recorded {o : Options} {a : Action} {stamp job : String} {s t : Session}
    {r : Report} (recorded : Recorded o a stamp s t job r) {d : Files.Disk}
    (copy : Program.copied o r t.disk = .ok d) (ss : List Shipment) (rs : List Log.Record) :
    Reported o a stamp s (told { t with disk := d, shipments := ss } rs) r := by
  obtain ⟨d₀, put⟩ := recorded.file
  have there := Files.Disk.entry?_write put (Files.Entry.isPlain_file _)
  obtain rfl := recorded.named
  refine ⟨recorded.acted, ?_, fun path asked => ?_⟩ <;> unfold Program.copied at copy
  · change d.entry? _ = _
    cases asked : file? o.report with
    | none =>
      rw [asked] at copy
      rwa [← Except.ok.inj copy]
    | some path =>
      rw [asked] at copy
      exact Files.Disk.entry?_write_of_same copy there nofun
  · rw [asked] at copy
    exact Files.Disk.entry?_write copy (Files.Entry.isPlain_file _)

end CommandLine.Program
end Flotilla
