import Mathlib.Data.List.Infix
import Flotilla.Proofs.Host.Exchange

/-! What comes of a connection, by what the host does: the first thing that goes wrong, except that a
connection which cannot be closed is that above all. And in which order things pass over it, which is
the same whether or not the command is waited for. -/
namespace Flotilla.Host

def sending? (u : Upload) : Option Event :=
  match u.content, u.file with
  | some text, _ => some (.put (Command.remotePath u.remote) (.content text))
  | none, some path => some (.put (Command.remotePath u.remote) (.file path))
  | none, none => none

inductive Way
  | waited
  | started
  deriving DecidableEq, Repr

def call (c : Command) : Way → Event
  | .waited => .run c.line c.asSudo c.timeout false
  | .started => .run c.line c.asSudo none true

namespace Event

def isPut : Event → Bool
  | .put .. => true
  | _ => false

def isRun : Event → Bool
  | .run .. => true
  | _ => false

end Event

namespace Behaviour

/-- Why a file put there is not taken, if so, by its place among them. -/
def putError? (b : Behaviour) (i : Nat) : Option String := b.putErrors[i]?.join

def uploadFailure? (refusal : Option String) (u : Upload) : Option String :=
  match sending? u with
  | some _ => refusal
  | none => some (ValueFault.uploadSource u.remote).message

def uploadsFailure? : List (Option String) → List Upload → Option String
  | _, [] => none
  | refusals, u :: r => (uploadFailure? refusals.head?.join u).or (uploadsFailure? refusals.tail r)

def useFailure? (b : Behaviour) (c : Command) : Option String :=
  (uploadsFailure? b.putErrors c.uploads).or b.runError

/-- Why there is no answer to a command that is waited for, if so. -/
def failure? (b : Behaviour) (c : Command) : Option String :=
  b.connectError.or (b.closeError.or (b.useFailure? c))

theorem uploadFailure?_eq_none_iff {refusal : Option String} {u : Upload} :
    uploadFailure? refusal u = none ↔ (sending? u).isSome ∧ refusal = none := by
  unfold uploadFailure?
  cases sending? u <;> simp

theorem uploadsFailure?_eq_none_iff {refusals : List (Option String)} {us : List Upload} :
    uploadsFailure? refusals us = none ↔
      ∀ (i : Nat) u, us[i]? = some u → (sending? u).isSome ∧ refusals[i]?.join = none := by
  induction us generalizing refusals with
  | nil => simp [uploadsFailure?]
  | cons u us ih =>
    rw [uploadsFailure?, Option.or_eq_none_iff, uploadFailure?_eq_none_iff, ih]
    refine ⟨fun h i v found => ?_, fun h => ⟨?_, fun i v found => ?_⟩⟩
    · cases i with
      | zero =>
        obtain rfl := Option.some.inj found
        simpa [List.head?_eq_getElem?] using h.1
      | succ i => simpa [List.getElem?_tail] using h.2 i v (by simpa using found)
    · simpa [List.head?_eq_getElem?] using h 0 u rfl
    · simpa [List.getElem?_tail] using h (i + 1) v (by simpa using found)

theorem uploadsFailure?_cases {refusals : List (Option String)} {us : List Upload} {why : String}
    (h : uploadsFailure? refusals us = some why) :
    some why ∈ refusals ∨ ∃ u ∈ us, why = (ValueFault.uploadSource u.remote).message := by
  induction us generalizing refusals with
  | nil => cases h
  | cons u us ih =>
    rcases Option.or_eq_some_iff.mp h with first | ⟨-, later⟩
    · unfold uploadFailure? at first
      split at first
      · exact .inl (List.mem_of_head? (Option.join_eq_some_iff.mp first))
      · exact .inr ⟨u, List.mem_cons_self, (Option.some.inj first).symm⟩
    · rcases ih later with refused | ⟨v, member, rfl⟩
      · exact .inl (List.mem_of_mem_tail refused)
      · exact .inr ⟨v, List.mem_cons_of_mem u member, rfl⟩

end Behaviour

def comesTo (why : Option String) (a : α) : Except String α :=
  match why with
  | some w => .error w
  | none => .ok a

theorem toOption_comesTo (why : Option String) (a : α) :
    (comesTo why a).toOption = if why = none then some a else none := by
  cases why <;> rfl

namespace Exchange
variable {α β : Type}

theorem outcome_step (e : Event) (refusal : Option String) :
    (step e refusal).outcome = comesTo refusal () := by
  cases refusal <;> rfl

theorem outcome_andThen_of {x : Exchange α} {f : α → Exchange β} {why why' : Option String} {a : α}
    {b : β} (first : x.outcome = comesTo why a) (second : (f a).outcome = comesTo why' b) :
    (x.andThen f).outcome = comesTo (why.or why') b := by
  unfold andThen
  rw [first]
  cases why with
  | some w => rfl
  | none => exact second

theorem outcome_closing_of {b : Behaviour} {x : Exchange α} {why : Option String} {a : α}
    (h : x.outcome = comesTo why a) : (x.closing b).outcome = comesTo (b.closeError.or why) a := by
  unfold closing
  cases b.closeError with
  | some w => rfl
  | none => exact h

theorem put_eq (refusal : Option String) (u : Upload) :
    put refusal u = match sending? u with
      | some e => step e refusal
      | none => fail [] (ValueFault.uploadSource u.remote).message := by
  unfold put sending?
  rcases u with ⟨remote, _ | path, _ | text⟩ <;> rfl

theorem outcome_put (refusal : Option String) (u : Upload) :
    (put refusal u).outcome = comesTo (Behaviour.uploadFailure? refusal u) () := by
  rw [put_eq, Behaviour.uploadFailure?]
  cases sending? u with
  | some e => exact outcome_step e refusal
  | none => rfl

theorem outcome_putEach (refusals : List (Option String)) (us : List Upload) :
    (putEach refusals us).outcome = comesTo (Behaviour.uploadsFailure? refusals us) () := by
  induction us generalizing refusals with
  | nil => rfl
  | cons u us ih => exact outcome_andThen_of (outcome_put _ u) (ih _)

theorem outcome_putAll (b : Behaviour) (us : List Upload) :
    (putAll b us).outcome = comesTo (Behaviour.uploadsFailure? b.putErrors us) () :=
  outcome_putEach b.putErrors us

theorem outcome_perform (b : Behaviour) (c : Command) :
    (perform b c).outcome = comesTo (b.useFailure? c) b.answer := by
  refine outcome_andThen_of (outcome_putAll b c.uploads) ?_
  unfold run step
  cases b.runError <;> rfl

theorem outcome_complete (b : Behaviour) (a : Access) (c : Command) :
    (complete b a c).outcome = comesTo (b.failure? c) b.answer :=
  outcome_andThen_of (outcome_step _ _) (outcome_closing_of (outcome_perform b c))

theorem toOption_complete (b : Behaviour) (a : Access) {c : Command} (bare : c.uploads = []) :
    (complete b a c).outcome.toOption =
      if b.Answers ∧ b.closeError = none then some b.answer else none := by
  rw [outcome_complete, toOption_comesTo]
  refine if_congr ?_ rfl rfl
  simp [Behaviour.failure?, Behaviour.useFailure?, Behaviour.uploadsFailure?, Behaviour.Answers, bare,
    and_assoc, and_comm]

/-- A command that is not waited for is closed only if it failed, so only then can that fail too. -/
theorem outcome_launch (b : Behaviour) (a : Access) (c : Command) :
    (launch b a c).outcome =
      comesTo (b.connectError.or ((b.useFailure? c).map b.closeError.getD)) () := by
  refine outcome_andThen_of (outcome_step _ _) ?_
  have used : ((putAll b c.uploads).andThen fun _ => start b c).outcome =
      comesTo (b.useFailure? c) () :=
    outcome_andThen_of (outcome_putAll b c.uploads) (outcome_step _ b.runError)
  dsimp only [launched]
  cases failed : b.useFailure? c with
  | none =>
    rw [failed] at used
    simp only [used, comesTo, Option.map_none]
  | some why =>
    rw [failed] at used
    have closed := outcome_closing_of (b := b) used
    simp only [used, comesTo, Option.map_some] at closed ⊢
    rw [closed]
    cases b.closeError <;> rfl

/-- Where closing does not fail, a command that is waited for fails as one that is not. -/
theorem failure?_of_closes {b : Behaviour} (closes : b.closeError = none) (c : Command) :
    b.failure? c = b.connectError.or ((b.useFailure? c).map b.closeError.getD) := by
  rw [Behaviour.failure?, closes, Option.none_or]
  cases b.useFailure? c <;> rfl

theorem events_andThen_of {x : Exchange α} {why : Option String} {a : α}
    (first : x.outcome = comesTo why a) (f : α → Exchange β) :
    (x.andThen f).events = x.events ++ if why.isNone then (f a).events else [] := by
  unfold andThen
  rw [first]
  cases why with
  | some w => exact (List.append_nil _).symm
  | none => rfl

theorem events_step (e : Event) (refusal : Option String) : (step e refusal).events = [e] := by
  cases refusal <;> rfl

theorem events_closing (b : Behaviour) (x : Exchange α) :
    (x.closing b).events = x.events ++ [.close] := by
  unfold closing
  split <;> rfl

/-- What passes over a connection between its being opened and closed: the uploads, and the command
unless one of them failed. -/
def used (b : Behaviour) (us : List Upload) (call : Event) : List Event :=
  (putAll b us).events ++ if (Behaviour.uploadsFailure? b.putErrors us).isNone then [call] else []

theorem events_putAll_andThen {b : Behaviour} {us : List Upload} {f : Unit → Exchange α} {e : Event}
    (h : (f ()).events = [e]) : ((putAll b us).andThen f).events = used b us e := by
  rw [events_andThen_of (outcome_putAll b us), h, used]

theorem events_perform (b : Behaviour) (c : Command) :
    (perform b c).events = used b c.uploads (call c .waited) :=
  events_putAll_andThen (events_step _ b.runError)

theorem events_complete_of_connected {b : Behaviour} (connected : b.connectError = none) (a : Access)
    (c : Command) :
    (complete b a c).events = a.event :: (used b c.uploads (call c .waited) ++ [.close]) := by
  rw [complete, connect, events_andThen_of (outcome_step a.event b.connectError), connected,
    events_closing, events_perform, events_step]
  rfl

theorem events_launch_of_connected {b : Behaviour} (connected : b.connectError = none) (a : Access)
    (c : Command) :
    (launch b a c).events = a.event :: (used b c.uploads (call c .started) ++
      if (b.useFailure? c).isSome then [.close] else []) := by
  have used : ((putAll b c.uploads).andThen fun _ => start b c).outcome =
      comesTo (b.useFailure? c) () :=
    outcome_andThen_of (outcome_putAll b c.uploads) (outcome_step _ b.runError)
  have passed : ((putAll b c.uploads).andThen fun _ => start b c).events =
      Exchange.used b c.uploads (call c .started) :=
    events_putAll_andThen (events_step _ b.runError)
  rw [launch, connect, events_andThen_of (outcome_step a.event b.connectError), connected, events_step]
  dsimp only [launched]
  rw [used]
  cases b.useFailure? c with
  | none => simp [comesTo, passed]
  | some why => simp [comesTo, passed, events_closing]

theorem events_of_refused {b : Behaviour} {why : String} (refused : b.connectError = some why)
    (a : Access) (f : Unit → Exchange α) : ((connect b a).andThen f).events = [a.event] := by
  rw [connect, events_andThen_of (outcome_step a.event b.connectError), events_step, refused]
  rfl

theorem isPut_of_sending? {u : Upload} {e : Event} (h : sending? u = some e) : e.isPut := by
  rcases u with ⟨remote, _ | path, _ | text⟩ <;> cases h <;> rfl

theorem events_putEach_cons (refusals : List (Option String)) (u : Upload) (us : List Upload) :
    (putEach refusals (u :: us)).events = match sending? u with
      | some e => e :: if refusals.head?.join = none then (putEach refusals.tail us).events else []
      | none => [] := by
  rw [putEach, put_eq]
  cases sending? u with
  | none => rfl
  | some e =>
    rw [events_andThen_of (outcome_step e _), events_step]
    cases refusals.head?.join <;> rfl

theorem events_putEach_initial (refusals : List (Option String)) (us : List Upload) :
    (putEach refusals us).events.map some <+: us.map sending? := by
  induction us generalizing refusals with
  | nil => exact List.nil_prefix
  | cons u us ih =>
    rw [events_putEach_cons, List.map_cons]
    cases sending? u with
    | none => exact List.nil_prefix
    | some e =>
      dsimp only
      split
      · simpa using ih refusals.tail
      · simp

theorem isPut_of_mem_putAll {b : Behaviour} {us : List Upload} {e : Event}
    (h : e ∈ (putAll b us).events) : e.isPut := by
  have sent := (events_putEach_initial b.putErrors us).subset (List.mem_map_of_mem (f := some) h)
  obtain ⟨u, -, same⟩ := List.mem_map.mp sent
  exact isPut_of_sending? same

theorem events_putEach_of_ok {refusals : List (Option String)} {us : List Upload}
    (h : Behaviour.uploadsFailure? refusals us = none) :
    (putEach refusals us).events.map some = us.map sending? := by
  induction us generalizing refusals with
  | nil => rfl
  | cons u us ih =>
    rw [Behaviour.uploadsFailure?, Option.or_eq_none_iff, Behaviour.uploadFailure?_eq_none_iff] at h
    obtain ⟨⟨said, taken⟩, rest⟩ := h
    obtain ⟨e, sending⟩ := Option.isSome_iff_exists.mp said
    rw [events_putEach_cons, sending, if_pos taken, List.map_cons, List.map_cons, sending, ih rest]

theorem length_events_putEach_of_refused {refusals : List (Option String)} {i : Nat} {why : String}
    (refused : refusals[i]?.join = some why) (us : List Upload) :
    (putEach refusals us).events.length ≤ i + 1 := by
  induction us generalizing refusals i with
  | nil => exact Nat.zero_le _
  | cons u us ih =>
    rw [events_putEach_cons]
    cases sending? u with
    | none => exact Nat.zero_le _
    | some e =>
      dsimp only
      split
      · next taken =>
        cases i with
        | zero =>
          rw [List.head?_eq_getElem?, refused] at taken
          cases taken
        | succ i => exact Nat.succ_le_succ (ih (by rwa [List.getElem?_tail]))
      · exact Nat.succ_le_succ (Nat.zero_le _)

theorem length_events_putEach_of_unsaid {us : List Upload} {i : Nat} {u : Upload}
    (there : us[i]? = some u) (unsaid : sending? u = none) (refusals : List (Option String)) :
    (putEach refusals us).events.length ≤ i := by
  by_contra more
  have sent := events_putEach_initial refusals us
  have within : i < ((putEach refusals us).events.map some).length := by
    rw [List.length_map]
    exact Nat.lt_of_not_le more
  obtain ⟨bound, rfl⟩ := List.getElem?_eq_some_iff.mp there
  have same := sent.getElem within
  simp [unsaid] at same

theorem sent_of_isNone {b : Behaviour} {us : List Upload}
    (h : (Behaviour.uploadsFailure? b.putErrors us).isNone) {i : Nat} {u : Upload}
    (there : us[i]? = some u) : (sending? u).isSome ∧ b.putError? i = none :=
  Behaviour.uploadsFailure?_eq_none_iff.mp (Option.isNone_iff_eq_none.mp h) i u there

/-- What may pass over a connection that was let in, and in which order. -/
structure Orderly (b : Behaviour) (a : Access) (c : Command) (way : Way) (events : List Event) :
    Prop where
  opens : ∃ rest, events = a.event :: rest ∧ ∀ e ∈ rest, e.opens = false
  /-- The first uploads are sent, in their order. -/
  puts : (events.filter Event.isPut).map some <+: c.uploads.map sending?
  /-- An upload that does not say what to send is the end of it. -/
  sends : ∀ {i u}, c.uploads[i]? = some u → sending? u = none →
    (events.filter Event.isPut).length ≤ i ∧ events.countP Event.isRun = 0
  /-- So is one that the host does not take, wherever it stands. -/
  takes : ∀ {i why}, i < c.uploads.length → b.putError? i = some why →
    (events.filter Event.isPut).length ≤ i + 1 ∧ events.countP Event.isRun = 0
  once : events.countP Event.isRun ≤ 1
  runs : ∀ e ∈ events, e.isRun → e = call c way ∧
    (events.filter Event.isPut).map some = c.uploads.map sending? ∧
      ∀ i < c.uploads.length, b.putError? i = none
  halts : events.Pairwise fun e e' => e.isRun ∨ e = .close → e' = .close

theorem opens_of_isPut {e : Event} (h : e.isPut) : e.opens = false := by
  cases e <;> first | rfl | cases h

theorem isRun_of_isPut {e : Event} (h : e.isPut) : e.isRun = false := by
  cases e <;> first | rfl | cases h

theorem isRun_call (c : Command) (way : Way) : (call c way).isRun := by
  cases way <;> rfl

theorem filter_used (b : Behaviour) (c : Command) (way : Way) :
    (used b c.uploads (call c way)).filter Event.isPut = (putAll b c.uploads).events := by
  have puts : (putAll b c.uploads).events.filter Event.isPut = (putAll b c.uploads).events :=
    List.filter_eq_self.mpr fun e he => isPut_of_mem_putAll he
  rw [used, List.filter_append, puts]
  cases way <;> split <;> simp [call, Event.isPut]

theorem countP_used (b : Behaviour) (c : Command) (way : Way) :
    (used b c.uploads (call c way)).countP Event.isRun =
      if (Behaviour.uploadsFailure? b.putErrors c.uploads).isNone then 1 else 0 := by
  have puts : (putAll b c.uploads).events.countP Event.isRun = 0 :=
    List.countP_eq_zero.mpr fun e he => by simp [isRun_of_isPut (isPut_of_mem_putAll he)]
  rw [used, List.countP_append, puts, Nat.zero_add]
  split <;> simp [isRun_call]

theorem opens_used {b : Behaviour} {c : Command} {way : Way} {e : Event}
    (h : e ∈ used b c.uploads (call c way)) : e.opens = false := by
  rcases List.mem_append.mp h with put | run
  · exact opens_of_isPut (isPut_of_mem_putAll put)
  · split at run
    · obtain rfl := List.mem_singleton.mp run
      cases way <;> rfl
    · cases run

theorem halts_used (b : Behaviour) (c : Command) (way : Way) :
    (used b c.uploads (call c way)).Pairwise fun e e' => e.isRun ∨ e = .close → e' = .close := by
  have goesOn : ∀ e ∈ (putAll b c.uploads).events, ¬ (e.isRun ∨ e = .close) := by
    rintro e he (run | rfl)
    · simp [isRun_of_isPut (isPut_of_mem_putAll he)] at run
    · cases isPut_of_mem_putAll he
  refine List.pairwise_append.mpr ⟨?_, ?_, fun e he _ _ halts => absurd halts (goesOn e he)⟩
  · exact List.pairwise_of_forall_mem_list fun e he _ _ halts => absurd halts (goesOn e he)
  · split
    · exact List.pairwise_singleton _ _
    · exact .nil

theorem orderly (b : Behaviour) (a : Access) (c : Command) (way : Way) (n : Nat) :
    Orderly b a c way (a.event :: (used b c.uploads (call c way) ++ .replicate n .close)) := by
  have puts : (a.event :: (used b c.uploads (call c way) ++ .replicate n .close)).filter Event.isPut =
      (putAll b c.uploads).events := by
    rw [List.filter_cons_of_neg (by simp [Access.event, Event.isPut]), List.filter_append, filter_used]
    simp [Event.isPut]
  have runs : (a.event :: (used b c.uploads (call c way) ++ .replicate n .close)).countP Event.isRun =
      if (Behaviour.uploadsFailure? b.putErrors c.uploads).isNone then 1 else 0 := by
    rw [List.countP_cons_of_neg (by simp [Access.event, Event.isRun]), List.countP_append, countP_used]
    simp [List.countP_replicate, Event.isRun]
  refine ⟨⟨_, rfl, ?_⟩, puts ▸ events_putEach_initial _ c.uploads, ?_, ?_, ?_, ?_, ?_⟩
  · intro e he
    rcases List.mem_append.mp he with used | closing
    · exact opens_used used
    · rw [List.eq_of_mem_replicate closing]
      rfl
  · intro i u there unsaid
    have fails : ¬ (Behaviour.uploadsFailure? b.putErrors c.uploads).isNone := fun sent => by
      simpa [unsaid] using (sent_of_isNone sent there).1
    rw [puts, runs, if_neg fails]
    exact ⟨length_events_putEach_of_unsaid there unsaid _, rfl⟩
  · intro i why bound refused
    have fails : ¬ (Behaviour.uploadsFailure? b.putErrors c.uploads).isNone := fun sent => by
      cases refused.symm.trans (sent_of_isNone sent (List.getElem?_eq_getElem bound)).2
    rw [puts, runs, if_neg fails]
    exact ⟨length_events_putEach_of_refused refused _, rfl⟩
  · rw [runs]
    split <;> simp
  · intro e he run
    rw [puts]
    rcases List.mem_cons.mp he with rfl | he
    · cases run
    rcases List.mem_append.mp he with used | closing
    · rcases List.mem_append.mp used with put | call
      · simp [isRun_of_isPut (isPut_of_mem_putAll put)] at run
      · split at call
        · next sent =>
          have all := events_putEach_of_ok (Option.isNone_iff_eq_none.mp sent)
          exact ⟨List.mem_singleton.mp call, all, fun i bound =>
            (sent_of_isNone sent (List.getElem?_eq_getElem bound)).2⟩
        · cases call
    · rw [List.eq_of_mem_replicate closing] at run
      cases run
  · refine List.pairwise_cons.mpr ⟨?_, List.pairwise_append.mpr ⟨halts_used b c way, ?_, ?_⟩⟩
    · rintro e - (run | close)
      · cases run
      · cases close
    · exact List.pairwise_replicate.mpr (.inr fun _ => rfl)
    · exact fun _ _ _ closing _ => List.eq_of_mem_replicate closing

theorem Orderly.cut {b : Behaviour} {a : Access} {c : Command} {way : Way} {events events' : List Event}
    (h : Orderly b a c way events) (initial : events' <+: events) (begun : events' ≠ []) :
    Orderly b a c way events' := by
  have fewer := (initial.filter Event.isPut).length_le
  have rarer : events'.countP Event.isRun ≤ events.countP Event.isRun := initial.sublist.countP_le
  refine ⟨?_, ((initial.filter Event.isPut).map some).trans h.puts, ?_, ?_, rarer.trans h.once, ?_, ?_⟩
  · obtain ⟨rest, rfl, inside⟩ := h.opens
    obtain ⟨e, r, rfl⟩ := List.exists_cons_of_ne_nil begun
    obtain ⟨rfl, later⟩ := List.cons_prefix_cons.mp initial
    exact ⟨r, rfl, fun e he => inside e (later.subset he)⟩
  · intro i u there unsaid
    obtain ⟨few, none⟩ := h.sends there unsaid
    exact ⟨fewer.trans few, Nat.le_zero.mp (none ▸ rarer)⟩
  · intro i why bound refused
    obtain ⟨few, none⟩ := h.takes bound refused
    exact ⟨fewer.trans few, Nat.le_zero.mp (none ▸ rarer)⟩
  · intro e he run
    obtain ⟨same, all, taken⟩ := h.runs e (initial.subset he) run
    obtain ⟨rest, rfl⟩ := initial
    have later : rest.filter Event.isPut = [] := List.filter_eq_nil_iff.mpr fun e' he' => by
      rw [(List.pairwise_append.mp h.halts).2.2 e he e' he' (.inl run)]
      exact Bool.false_ne_true
    rw [List.filter_append, later, List.append_nil] at all
    exact ⟨same, all, taken⟩
  · exact h.halts.sublist initial.sublist

theorem count_close (b : Behaviour) (a : Access) (c : Command) (way : Way) (n : Nat) :
    (a.event :: (used b c.uploads (call c way) ++ .replicate n .close)).count .close = n := by
  have unclosed : .close ∉ used b c.uploads (call c way) := by
    intro closing
    rcases List.mem_append.mp closing with put | run
    · cases isPut_of_mem_putAll put
    · split at run
      · cases way <;> cases List.mem_singleton.mp run
      · cases run
  rw [List.count_cons_of_ne (by simp [Access.event]), List.count_append,
    List.count_eq_zero_of_not_mem unclosed, List.count_replicate_self, Nat.zero_add]

end Exchange
end Flotilla.Host
