import Mathlib.Data.List.Nodup
import Flotilla.Report.Basic

/-! When the commands of a handle end, and when the report looks at it, is up to chance. The report
enters the tasks once, when each has been issued or has failed to be, and from then on looks as often
as it likes for those that have ended. Whatever the order, the same is left in the end: for each task
its own final result, in the order of the tasks. -/
namespace Flotilla.Report
open Executor

variable {γ : Type}

/-- What comes to a handle until it is entered into a report. -/
inductive Mark (γ : Type)
  | issued (key : String) (connection : Option γ)
  | refused (r : Result)
  | ended (r : Result)

namespace Mark

def apply (h : Handle γ) : Mark γ → Handle γ
  | issued key connection => (h.markIssued key connection).2
  | refused r => (h.markIssueFailed r).2
  | ended r => h.complete r

def issued? : Mark γ → Option String
  | issued key _ => some key
  | _ => none

def refused? : Mark γ → Option Result
  | refused r => some r
  | _ => none

def ended? : Mark γ → Option Result
  | ended r => some r
  | _ => none

def result? (m : Mark γ) : Option Result := m.refused?.or m.ended?

end Mark

/-- What comes to a handle that has been entered, and to the report that watches it. -/
inductive Watch
  | ended (r : Result)
  | polled

namespace Watch

def apply (stage : String) (x : Handle γ × Report) : Watch → Handle γ × Report
  | ended r => (x.1.complete r, x.2)
  | polled => (x.1, x.2.updateFrom stage x.1.results)

def ended? : Watch → Option Result
  | ended r => some r
  | polled => none

end Watch

/-- The order in which things come to a handle, with the moment at which it is entered between the
two lists. The report looks at it once more at the end. -/
structure Schedule (γ : Type) where
  before : List (Mark γ)
  after : List Watch

/-- Which tasks are issued, and the final result of each: how its command ended, or why it was not
issued. -/
structure Course where
  isIssued : Task → Bool
  final : Task → Result

namespace Schedule

def handle (s : Schedule γ) (tasks : List Task) : Handle γ := s.before.foldl Mark.apply { tasks }

def play (s : Schedule γ) (stage : String) (tasks : List Task) (report : Report) : Report :=
  let h := s.handle tasks
  let (h,report) := s.after.foldl (Watch.apply stage) (h, report.recordDispatch stage h)
  report.updateFrom stage h.results

/-- A schedule of a course: each task is issued or refused before the handle is entered, and each that
was issued ends once, at any time. -/
structure Follows (s : Schedule γ) (tasks : List Task) (c : Course) : Prop where
  issued : (s.before.filterMap Mark.issued?).Perm ((tasks.filter c.isIssued).map (·.key))
  refused : (s.before.filterMap Mark.refused?).Perm ((tasks.filter (!c.isIssued ·)).map c.final)
  ended : (s.before.filterMap Mark.ended? ++ s.after.filterMap Watch.ended?).Perm
    ((tasks.filter c.isIssued).map c.final)

end Schedule

def collect (rs : Results) (xs : List Result) : Results := xs.foldl (fun rs r => rs.putNew r.key r) rs

theorem get?_collect (rs : Results) (xs : List Result) (k : String) :
    (collect rs xs).get? k = (rs.get? k).or (xs.find? (·.key = k)) := by
  induction xs generalizing rs with
  | nil => simp [collect]
  | cons x xs ih =>
    change (collect (rs.putNew x.key x) xs).get? k = _
    rw [ih, Table.get?_putNew, List.find?_cons]
    cases stored : rs.get? k <;> by_cases same : k = x.key <;> grind

theorem mem_of_get?_collect {rs : Results} {xs : List Result} {k : String} {r : Result}
    (h : (collect rs xs).get? k = some r) : rs.get? k = some r ∨ r ∈ xs ∧ r.key = k := by
  rw [get?_collect, Option.or_eq_some_iff] at h
  rcases h with had | ⟨-, found⟩
  · exact .inl had
  · exact .inr ⟨List.mem_of_find?_eq_some found, by simpa using List.find?_some found⟩

theorem get?_collect_of_get? {rs : Results} (xs : List Result) {k : String} {r : Result}
    (h : rs.get? k = some r) : (collect rs xs).get? k = some r := by
  rw [get?_collect, h, Option.some_or]

theorem get?_collect_of_mem {rs : Results} {xs : List Result} {r : Result} (h : r ∈ xs) :
    ∃ r', (collect rs xs).get? r.key = some r' := by
  rw [← Option.isSome_iff_exists, get?_collect, Option.isSome_or, List.find?_isSome.mpr ⟨r, h, by simp⟩,
    Bool.or_true]

theorem results_mark (h : Handle γ) (m : Mark γ) :
    (m.apply h).results = collect h.results m.result?.toList := by
  cases m with
  | issued key connection => exact h.markIssued_results key connection
  | refused r => exact h.markIssueFailed_results r
  | ended r => rfl

theorem results_marks (ms : List (Mark γ)) (h : Handle γ) :
    (ms.foldl Mark.apply h).results = collect h.results (ms.filterMap Mark.result?) := by
  induction ms generalizing h with
  | nil => rfl
  | cons m ms ih =>
    rw [List.foldl_cons, ih, results_mark]
    cases m <;> rfl

theorem tasks_mark (h : Handle γ) (m : Mark γ) : (m.apply h).tasks = h.tasks := by
  cases m with
  | issued key connection => exact h.markIssued_tasks key connection
  | refused r => exact h.markIssueFailed_tasks r
  | ended r => rfl

theorem tasks_marks (ms : List (Mark γ)) (h : Handle γ) :
    (ms.foldl Mark.apply h).tasks = h.tasks := by
  induction ms generalizing h with
  | nil => rfl
  | cons m ms ih => rw [List.foldl_cons, ih, tasks_mark]

def concluded (stage : String) (tasks : List Task) (final : Task → Result)
    (es : Table String Outcome) : Table String Outcome :=
  tasks.foldl (fun es t => es.put t.key (.ofResult stage (final t))) es

/-- Entries of which some are final and the others still say that the task was dispatched. -/
structure Partway (stage : String) (tasks : List Task) (final : Task → Result)
    (start es : Table String Outcome) : Prop where
  keys : es.keys = (concluded stage tasks final start).keys
  task : ∀ t ∈ tasks, es.get? t.key = some (.dispatched stage t) ∨
    es.get? t.key = some (.ofResult stage (final t))
  other : ∀ k ∉ tasks.map (·.key), es.get? k = start.get? k

def Sound (tasks : List Task) (final : Task → Result) (rs : Results) : Prop :=
  ∀ k r, rs.get? k = some r → ∃ t ∈ tasks, t.key = k ∧ final t = r

theorem status_ofResult (stage : String) (r : Result) :
    (Outcome.ofResult stage r).status ≠ .dispatched := by
  unfold Outcome.ofResult
  dsimp only
  split <;> decide

variable {stage : String} {tasks : List Task} {final : Task → Result}
  {start es : Table String Outcome} {rs : Results}

theorem get?_concluded (distinct : (tasks.map (·.key)).Nodup) {t : Task} (ht : t ∈ tasks) :
    (concluded stage tasks final start).get? t.key = some (.ofResult stage (final t)) :=
  Table.get?_foldl_put_of_mem Task.key (fun t => Outcome.ofResult stage (final t)) start distinct ht

/-- Entering a handle leaves failures that are final; what has succeeded by then counts as
dispatched like what is still running. -/
theorem partway_enter (distinct : (tasks.map (·.key)).Nodup) (sound : Sound tasks final rs) :
    Partway stage tasks final start
      (tasks.foldl (fun es t => es.put t.key (standing stage (rs.filter fun _ r => !r.isOk) t))
        start) where
  keys := Table.keys_foldl_put_congr _ _ _ tasks rfl
  task := by
    intro t ht
    rw [Table.get?_foldl_put_of_mem _ _ _ distinct ht, standing, Table.get?_filter]
    cases found : rs.get? t.key with
    | none => exact .inl rfl
    | some r =>
      obtain ⟨u, hu, same, rfl⟩ := sound _ _ found
      rw [List.inj_on_of_nodup_map distinct hu ht same]
      cases ok : (final t).isOk <;> simp [Option.filter, ok]
  other := fun k hk => Table.get?_foldl_put_of_notMem _ _ _ _ hk

theorem partway_settle (distinct : (tasks.map (·.key)).Nodup)
    (h : Partway stage tasks final start es) {t : Task} (ht : t ∈ tasks) :
    Partway stage tasks final start (settle stage es (t.key, final t)) where
  keys := (keys_settle _ _ _).trans h.keys
  task := by
    intro u hu
    rw [get?_settle]
    split
    · next found => exact .inr (by rw [List.inj_on_of_nodup_map distinct hu ht found.1])
    · exact h.task u hu
  other := by
    intro k hk
    rw [get?_settle, if_neg, h.other k hk]
    rintro ⟨rfl, -⟩
    exact hk (List.mem_map_of_mem ht)

theorem get?_settle_self (h : Partway stage tasks final start es) {t : Task} (ht : t ∈ tasks) :
    (settle stage es (t.key, final t)).get? t.key = some (.ofResult stage (final t)) := by
  rw [get?_settle]
  cases h.task t ht with
  | inl dispatched => rw [if_pos ⟨rfl, by rw [dispatched]; rfl⟩]
  | inr done => rw [done]; split <;> rfl

theorem get?_settle_done {k : String} {r : Result}
    (h : es.get? k = some (.ofResult stage r)) (e : String × Result) :
    (settle stage es e).get? k = some (.ofResult stage r) := by
  rw [get?_settle, if_neg, h]
  rintro ⟨-, dispatched⟩
  rw [h] at dispatched
  exact status_ofResult stage r (by simpa using dispatched)

theorem sound_entry (sound : Sound tasks final rs) {e : String × Result} (h : e ∈ rs.entries) :
    ∃ t ∈ tasks, e = (t.key, final t) := by
  obtain ⟨t, ht, key, value⟩ := sound e.1 e.2 (rs.get?_eq_some_iff.mpr h)
  exact ⟨t, ht, Prod.ext key.symm value.symm⟩

theorem partway_poll (distinct : (tasks.map (·.key)).Nodup) (sound : Sound tasks final rs)
    (h : Partway stage tasks final start es) :
    Partway stage tasks final start (rs.entries.foldl (settle stage) es) := by
  refine List.foldlRecOn rs.entries (settle stage) h ?_
  intro es h e member
  obtain ⟨t, ht, rfl⟩ := sound_entry sound member
  exact partway_settle distinct h ht

theorem get?_poll (distinct : (tasks.map (·.key)).Nodup) {xs : List (String × Result)}
    (sound : ∀ e ∈ xs, ∃ t ∈ tasks, e = (t.key, final t))
    (h : Partway stage tasks final start es) {t : Task} (ht : t ∈ tasks)
    (ended : (t.key, final t) ∈ xs) :
    (xs.foldl (settle stage) es).get? t.key = some (.ofResult stage (final t)) := by
  induction xs generalizing es with
  | nil => simp at ended
  | cons e xs ih =>
    rw [List.foldl_cons]
    cases List.mem_cons.mp ended with
    | inl first =>
      exact List.foldlRecOn (motive := fun es => es.get? t.key = some (.ofResult stage (final t)))
        xs (settle stage) (first ▸ get?_settle_self h ht) fun es done e _ => get?_settle_done done e
    | inr later =>
      obtain ⟨u, hu, rfl⟩ := sound e (by simp)
      exact ih (fun e he => sound e (by simp [he])) (partway_settle distinct h hu) later

theorem poll_eq_concluded (distinct : (tasks.map (·.key)).Nodup) (sound : Sound tasks final rs)
    (complete : ∀ t ∈ tasks, ∃ r, rs.get? t.key = some r)
    (h : Partway stage tasks final start es) :
    rs.entries.foldl (settle stage) es = concluded stage tasks final start := by
  have polled := partway_poll distinct sound h
  apply Table.ext_get? polled.keys
  intro k
  by_cases hk : k ∈ tasks.map (·.key)
  · obtain ⟨t, ht, rfl⟩ := List.mem_map.mp hk
    obtain ⟨r, found⟩ := complete t ht
    obtain ⟨u, hu, same, rfl⟩ := sound _ _ found
    obtain rfl := List.inj_on_of_nodup_map distinct hu ht same
    rw [get?_poll distinct (fun e he => sound_entry sound he) h ht (rs.get?_eq_some_iff.mp found)]
    exact (get?_concluded distinct hu).symm
  · rw [polled.other k hk]
    exact (Table.get?_foldl_put_of_notMem _ _ _ _ hk).symm

theorem sound_collect (sound : Sound tasks final rs) {xs : List Result}
    (h : ∀ r ∈ xs, ∃ t ∈ tasks, t.key = r.key ∧ final t = r) :
    Sound tasks final (collect rs xs) := by
  intro k r found
  cases mem_of_get?_collect found with
  | inl earlier => exact sound k r earlier
  | inr later => exact later.2 ▸ h r later.1

/-- While a handle that has been entered is watched, its results are those that came to it, and the
report's entries are part of the way. -/
theorem watch (distinct : (tasks.map (·.key)).Nodup) (ws : List Watch) {h : Handle γ}
    (report : Report) (sound : Sound tasks final h.results)
    (sources : ∀ r ∈ ws.filterMap Watch.ended?, ∃ t ∈ tasks, t.key = r.key ∧ final t = r)
    (entered : Partway stage tasks final start es) :
    ∃ es', Partway stage tasks final start es' ∧
      ws.foldl (Watch.apply stage) (h, report.update stage fun _ => es) =
        ({ h with results := collect h.results (ws.filterMap Watch.ended?) },
          report.update stage fun _ => es') := by
  -- Results join the handle whether or not the report looks; a look only settles entries.
  induction ws generalizing h es with
  | nil => exact ⟨es, entered, rfl⟩
  | cons w ws ih =>
    cases w with
    | ended r =>
      have new : ∀ x ∈ [r], ∃ t ∈ tasks, t.key = x.key ∧ final t = x := by
        simpa using sources r (by simp [Watch.ended?])
      exact ih (sound_collect sound new)
        (fun r hr => sources r (by simp [Watch.ended?, hr])) entered
    | polled =>
      rw [List.foldl_cons, Watch.apply, updateFrom, update_update]
      exact ih sound sources (partway_poll distinct sound entered)

theorem perm_result? (ms : List (Mark γ)) :
    (ms.filterMap Mark.result?).Perm (ms.filterMap Mark.refused? ++ ms.filterMap Mark.ended?) := by
  induction ms with
  | nil => exact .nil
  | cons m ms ih =>
    cases m with
    | issued key connection => exact ih
    | refused r => exact ih.cons r
    | ended r => exact (ih.cons r).trans List.perm_middle.symm

theorem Schedule.Follows.perm {s : Schedule γ} {c : Course} (h : s.Follows tasks c) :
    (s.before.filterMap Mark.result? ++ s.after.filterMap Watch.ended?).Perm
      (tasks.map c.final) := by
  have parts : ((tasks.filter (!c.isIssued ·)).map c.final ++
      (tasks.filter c.isIssued).map c.final).Perm (tasks.map c.final) := by
    rw [← List.map_append]
    exact (List.perm_append_comm.trans (List.filter_append_perm c.isIssued tasks)).map c.final
  refine ((perm_result? s.before).append_right _).trans ?_
  rw [List.append_assoc]
  exact (h.refused.append h.ended).trans parts

/-- Each schedule of a course leaves the final results, under the keys in the order in which the
report has them or the tasks stand. -/
theorem play_eq {s : Schedule γ} {c : Course} (distinct : (tasks.map (·.key)).Nodup)
    (named : ∀ t ∈ tasks, (c.final t).key = t.key) (h : s.Follows tasks c) (report : Report) :
    s.play stage tasks report = report.update stage (concluded stage tasks c.final) := by
  have sources : ∀ r ∈ s.before.filterMap Mark.result? ++ s.after.filterMap Watch.ended?,
      ∃ t ∈ tasks, t.key = r.key ∧ c.final t = r := by
    intro r hr
    obtain ⟨t, ht, rfl⟩ := List.mem_map.mp (h.perm.mem_iff.mp hr)
    exact ⟨t, ht, (named t ht).symm, rfl⟩
  have results : (s.handle tasks).results = collect .empty (s.before.filterMap Mark.result?) :=
    results_marks s.before _
  have sound : Sound tasks c.final (s.handle tasks).results := by
    rw [results]
    exact sound_collect (by simp [Sound]) fun r hr => sources r (List.mem_append_left _ hr)
  have enter : Partway stage tasks c.final (report.entries stage) _ := partway_enter distinct sound
  obtain ⟨es, partway, watched⟩ := watch distinct s.after report sound
    (fun r hr => sources r (List.mem_append_right _ hr)) enter
  have complete : ∀ t ∈ tasks, ∃ r,
      (collect (s.handle tasks).results (s.after.filterMap Watch.ended?)).get? t.key = some r := by
    intro t ht
    rw [results, collect, collect, ← List.foldl_append, ← named t ht]
    exact get?_collect_of_mem (h.perm.mem_iff.mpr (List.mem_map_of_mem ht))
  have entered : report.recordDispatch stage (s.handle tasks) = report.update stage fun _ =>
      tasks.foldl (fun es t => es.put t.key (standing stage (s.handle tasks).failed t))
        (report.entries stage) := by
    rw [recordDispatch, Schedule.handle, tasks_marks]
    rfl
  have last := poll_eq_concluded distinct
    (sound_collect sound fun r hr => sources r (List.mem_append_right _ hr)) complete partway
  rw [Schedule.play, entered, Handle.failed]
  simp only [watched, updateFrom, update_update, last]
  rfl

/-- Neither the order in which tasks are issued and end, nor the moment at which the handle is entered,
nor how often the report looks at it shows in what is left. -/
theorem play_independent_of_timing {s s' : Schedule γ} {c : Course}
    (distinct : (tasks.map (·.key)).Nodup) (named : ∀ t ∈ tasks, (c.final t).key = t.key)
    (h : s.Follows tasks c) (h' : s'.Follows tasks c) (stage : String) (report : Report) :
    s.play stage tasks report = s'.play stage tasks report ∧
      ∀ t ∈ tasks, ((s.play stage tasks report).entries stage).get? t.key =
        some (.ofResult stage (c.final t)) := by
  refine ⟨(play_eq distinct named h report).trans (play_eq distinct named h' report).symm, ?_⟩
  intro t ht
  rw [play_eq distinct named h, entries_update]
  exact get?_concluded distinct ht

/-- One task is refused, and one fails: before it is entered in the one schedule, between two looks
in the other. -/
theorem play_early_eq_play_late :
    let a : Task := ⟨"a", "host", .line "true"⟩
    let b : Task := ⟨"b", "host", .line "false"⟩
    let c : Course :=
      ⟨(·.key = "b"), fun t => if t.key = "b" then ⟨"b", some "host", some 1, some "", some "", none⟩
        else .failed t "refused"⟩
    let early : Schedule Unit :=
      ⟨[.issued "b" none, .ended (c.final b), .refused (c.final a)], [.polled]⟩
    let late : Schedule Unit :=
      ⟨[.refused (c.final a), .issued "b" none], [.polled, .ended (c.final b), .polled]⟩
    early.Follows [a, b] c ∧ late.Follows [a, b] c ∧
      early.play "start" [a, b] .empty = late.play "start" [a, b] .empty ∧
      ((late.play "start" [a, b] .empty).entries "start").get? "b" =
        some ⟨"start", "b", some "host", .failed, some 1, some "exited with 1"⟩ := by
  intro a b c early late
  have he : early.Follows [a, b] c := ⟨by decide, by decide, by decide⟩
  have hl : late.Follows [a, b] c := ⟨by decide, by decide, by decide⟩
  have distinct : ([a, b].map (·.key)).Nodup := by decide
  have same := play_independent_of_timing distinct (by decide) hl he "start" .empty
  exact ⟨he, hl, same.1.symm, (same.2 b (by decide)).trans (by decide)⟩

end Flotilla.Report
