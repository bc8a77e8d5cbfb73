import WebSocketEngine.Proofs.Connection.Fair
import WebSocketEngine.Proofs.Connection.Traffic
import WebSocketEngine.Proofs.Idle.Recording
import WebSocketEngine.Proofs.Idle.Sweeping

/-!
Traffic keeps a connection alive, and only silence ends it.

As long as the clock shows whole milliseconds and nobody but the sweeps asks the tracker, the last
activity of a supervised connection is its last frame, or its creation, and an expiry that was found
has aborted the session (`Minded`).  So a sweep aborts a connection exactly if no frame has gone in
or out for as long as the timeout in force, and a driver that waits for something then ends with that
failure (`silence_aborts`).
-/

namespace WebSocketEngine

variable {σ : Type}

/-! ### Activity -/

namespace Connection

open Idle (counted)

variable {app : Application σ} {c d : Connection σ} {past : List (Instant × Frame)}

/-- After the traffic `past`, the tracker is at the last frame, and the supervisor watches. -/
structure Minded (past : List (Instant × Frame)) (c : Connection σ) : Prop where
  writer : c.host.session.outbox ≠ none
  origin : c.host.session.tracker.origin = 0
  whole : 1000000 ∣ c.host.now
  gone : ∀ m ∈ past, m.1 ≤ c.host.now
  before : ∀ m ∈ past, counted m.1 ≤ c.host.session.tracker.lastActivity
  latest : c.host.session.tracker.lastActivity = 0 ∨
    ∃ m ∈ past, counted m.1 = c.host.session.tracker.lastActivity
  early : c.host.session.tracker.lastActivity ≤ counted c.host.now
  flagged : c.host.session.tracker.expired = true → c.host.session.abortReason ≠ none
  entries : c.supervisor.entries = [] ∨ c.supervisor.entries = [(c.id, ())]
  listed : (∀ ending, c.phase ≠ .finished ending) → c.supervisor.entries = [(c.id, ())]

theorem minded_establish (memory : σ) (handler : Handler) (id : ConnectionId) (config : Config)
    (interval : Duration) (house : House) :
    Minded [] (establish true memory handler id config interval house) where
  writer := nofun
  origin := rfl
  whole := Nat.dvd_zero _
  gone := List.forall_mem_nil _
  before := List.forall_mem_nil _
  latest := .inl (Idle.Tracker.lastActivity_start 0)
  early := (Idle.Tracker.lastActivity_start 0).le.trans (Nat.zero_le _)
  flagged := nofun
  entries := .inr rfl
  listed _ := rfl

/-- The time of the last frame, as it is counted, or of the creation. -/
def lastPassed (past : List (Instant × Frame)) : Instant :=
  (past.map fun m => counted m.1).max?.getD 0

theorem Minded.lastActivity_eq (minded : Minded past c) :
    c.host.session.tracker.lastActivity = lastPassed past := by
  unfold lastPassed
  cases last : (past.map fun m => counted m.1).max? with
  | none =>
    have empty : past = [] := by simpa using last
    rcases minded.latest with none | ⟨m, mem, -⟩
    · exact none
    · rw [empty] at mem
      cases mem
  | some a =>
    obtain ⟨mem, most⟩ := List.max?_eq_some_iff.mp last
    obtain ⟨m, inside, rfl⟩ := List.mem_map.mp mem
    refine Nat.le_antisymm ?_ (minded.before m inside)
    rcases minded.latest with none | ⟨n, other, same⟩
    · rw [none]
      exact Nat.zero_le _
    · rw [← same]
      exact most _ (List.mem_map_of_mem other)

/-! ### What keeps it so -/

/-- The registration stays until the driver has ended. -/
theorem Minded.entries_of_goes (minded : Minded past c) (goes : Goes c d) :
    d.supervisor.entries = c.supervisor.entries ∨
      d.supervisor.entries = [] ∧ ∃ ending, d.phase = .finished ending := by
  rcases goes.registry with same | ⟨out, ended⟩
  · exact .inl (by rw [same])
  · refine .inr ⟨?_, ended⟩
    rw [out]
    show c.supervisor.entries.filter _ = []
    rcases minded.entries with none | one
    · rw [none]
      rfl
    · rw [one]
      simp

/-- The frames that pass are the last activity, if there are any. -/
theorem Minded.activity_of_goes (minded : Minded past c) (goes : Goes c d) :
    ∃ fs, news c d = fs.map (c.host.now, ·) ∧
      d.host.session.tracker.origin = 0 ∧
      d.host.session.tracker.expired = c.host.session.tracker.expired ∧
      d.host.session.tracker.lastActivity =
        if fs = [] then c.host.session.tracker.lastActivity else counted c.host.now := by
  obtain ⟨fs, passed, tracker⟩ := goes.passes.passed
  refine ⟨fs, by rw [news, passed, List.drop_left, goes.passes.now], ?_⟩
  rw [tracker]
  split
  · exact ⟨minded.origin, rfl, rfl⟩
  · refine ⟨minded.origin, rfl, ?_⟩
    rw [Idle.Tracker.lastActivity_touch, minded.origin, Idle.recorded_of_dvd minded.whole]
    exact Nat.max_eq_right minded.early

theorem Minded.goes (minded : Minded past c) (goes : Goes c d) : Minded (past ++ news c d) d := by
  obtain ⟨fs, passed, origin, expired, activity⟩ := minded.activity_of_goes goes
  have entries := minded.entries_of_goes goes
  have now : d.host.now = c.host.now := goes.passes.now
  have id : d.id = c.id := goes.passes.id
  refine ⟨goes.passes.writer, origin, now ▸ minded.whole, ?_, ?_, ?_, ?_, ?_, ?_, ?_⟩
  · intro m mem
    rw [now]
    rw [passed] at mem
    rcases List.mem_append.mp mem with old | new
    · exact minded.gone m old
    · obtain ⟨f, -, rfl⟩ := List.mem_map.mp new
      exact Nat.le_refl _
  · intro m mem
    rw [activity]
    rw [passed] at mem
    rcases List.mem_append.mp mem with old | new
    · have bound := minded.before m old
      split
      · exact bound
      · exact bound.trans minded.early
    · obtain ⟨f, inside, rfl⟩ := List.mem_map.mp new
      rw [if_neg (List.ne_nil_of_mem inside)]
  · rw [activity, passed]
    cases fs with
    | nil =>
      rw [if_pos rfl, List.map_nil, List.append_nil]
      exact minded.latest
    | cons f fs =>
      refine .inr ⟨(c.host.now, f), List.mem_append_right _ List.mem_cons_self, ?_⟩
      rw [if_neg (List.cons_ne_nil f fs)]
  · rw [activity, now]
    split
    · exact minded.early
    · exact Nat.le_refl _
  · rw [expired]
    exact fun flag => goes.passes.reason (minded.flagged flag)
  · rw [id]
    rcases entries with same | ⟨none, -⟩
    · rw [same]
      exact minded.entries
    · exact .inl none
  · intro unfinished
    rw [id]
    rcases entries with same | ⟨-, ending, ended⟩
    · rw [same]
      refine minded.listed fun ending ended => ?_
      obtain ⟨ending', ended'⟩ := goes.ended ⟨ending, ended⟩
      exact unfinished ending' ended'
    · exact absurd ended (unfinished ending)

/-- The clock goes on to a whole millisecond. -/
theorem Minded.clock (minded : Minded past c) {now : Instant} (later : c.host.now ≤ now)
    (whole : 1000000 ∣ now) (sweepers : Idle.Sweepers) :
    Minded past { c with host := { c.host with now }, sweepers } :=
  ⟨minded.writer, minded.origin, whole, fun m mem => (minded.gone m mem).trans later,
    minded.before, minded.latest, minded.early.trans (Idle.counted_mono later),
    minded.flagged, minded.entries, minded.listed⟩

/-! ### Sweeps -/

theorem sweep_of_unlisted (none : c.supervisor.entries = []) : c.sweep.1 = c := by
  obtain ⟨host, fetched, inbound, ended, phase, patience, detached, ⟨interval, entries⟩, supervised,
    sweepers, callers, waiters⟩ := c
  cases none
  rfl

/-- A sweep over the one registration is one check. -/
theorem sweep_of_listed (listed : c.supervisor.entries = [(c.id, ())]) :
    c.sweep.1 = (c.host.checkIdle.2.idleFor?.map fun after => (⟨c.id, (), after⟩ : Idle.Expiry Unit)
      ).toList.foldl Connection.expire { c with host := c.host.checkIdle.1 } := by
  have kept : ({ c.supervisor with entries := [(c.id, ())] } : Idle.Supervisor Unit) =
      c.supervisor := by rw [← listed]
  let check : Host σ → Unit → Option (Host σ × Idle.State) := fun h _ => some h.checkIdle
  have checked : Idle.Supervisor.collect check c.host [(c.id, ())] = ([(c.id, ())],
      (c.host.checkIdle.2.idleFor?.map fun after => ⟨c.id, (), after⟩).toList,
      c.host.checkIdle.1) := by
    have lives : check c.host (c.id, ()).2 = some (c.host.checkIdle.1, c.host.checkIdle.2) := rfl
    rw [Idle.collect_cons_of_some lives, Idle.Supervisor.collect, List.append_nil]
  have swept : c.sweep.1 =
      (Idle.Supervisor.collect check c.host c.supervisor.entries).2.1.foldl Connection.expire
        { c with
          supervisor := { c.supervisor with
            entries := (Idle.Supervisor.collect check c.host c.supervisor.entries).1 }
          host := (Idle.Supervisor.collect check c.host c.supervisor.entries).2.2 } := rfl
  rw [swept, listed, checked, kept]

/-- A sweep has found the connection idle for too long. -/
structure Struck (c d : Connection σ) (after : Duration) : Prop where
  now : d.host.now = c.host.now
  id : d.id = c.id
  outbox : d.host.session.outbox = c.host.session.outbox
  tracker : d.host.session.tracker = { c.host.session.tracker with expired := true }
  reason : d.host.session.abortReason ≠ none
  first : c.host.session.abortReason = none →
    d.host.session.abortReason = some (.idleTimeout after) ∧ .driver ∈ d.host.ready
  passed : d.host.passed = c.host.passed
  verdict : d.host.verdict = c.host.verdict
  shutdown : d.host.shutdown = c.host.shutdown
  supervisor : d.supervisor = c.supervisor
  phase : d.phase = c.phase

theorem struck_abort {h : Host σ} (after : Duration) (now : h.now = c.host.now)
    (session : h.session = { c.host.session with
      tracker := { c.host.session.tracker with expired := true } })
    (passed : h.passed = c.host.passed) (verdict : h.verdict = c.host.verdict)
    (shutdown : h.shutdown = c.host.shutdown) :
    Struck c { c with host := h.abort (.idleTimeout after) } after := by
  have reason := abort_ne_none h (.idleTimeout after)
  rcases Host.abort_cases h (.idleTimeout after) with same | ⟨_, aborted⟩
  · rw [same] at reason ⊢
    refine ⟨now, by rw [Connection.id, session]; rfl, by rw [session], by rw [session], reason,
      fun none => ?_, passed, verdict, shutdown, rfl, rfl⟩
    rw [session] at reason
    exact absurd none reason
  · rw [aborted] at reason ⊢
    have logged : (h.log (Host.abortedLine h.session.id (.idleTimeout after))).passed = h.passed :=
      (Host.record_note _ _ _).trans (List.append_nil _)
    refine ⟨now, ?_, ?_, ?_, reason, fun _ => ⟨rfl, ?_⟩, logged.trans passed, verdict, shutdown, rfl,
      rfl⟩
    · show h.session.id = _
      rw [session]
      rfl
    · show h.session.outbox = _
      rw [session]
    · show h.session.tracker = _
      rw [session]
    · exact Host.mem_enqueue.mpr (.inr rfl)

/-- What a sweep finds out about a connection that it watches. -/
theorem sweep_of_check (listed : c.supervisor.entries = [(c.id, ())]) :
    (c.sweep.1 = c ∧ (c.host.session.tracker.expired = true ∨
      c.host.session.config.idleTimeout = .zero ∨
      (c.host.session.tracker.idleFor c.host.now).nanos <
        c.host.session.config.idleTimeout.nanos)) ∨
    (Struck c c.sweep.1 (c.host.session.tracker.idleFor c.host.now) ∧
      c.host.session.config.idleTimeout ≠ .zero ∧
      c.host.session.config.idleTimeout.nanos ≤
        (c.host.session.tracker.idleFor c.host.now).nanos) := by
  rw [sweep_of_listed listed]
  rcases c.host.session.tracker.check_cases c.host.session.config.idleTimeout c.host.now with
    ⟨quiet, same, why⟩ | ⟨found, changed, -, inForce, long⟩
  · refine .inl ⟨?_, why⟩
    have unfound : c.host.checkIdle.2.idleFor? = none := quiet
    have unchanged : c.host.checkIdle.1 = c.host := by
      rw [Host.checkIdle]
      dsimp only
      rw [same]
    rw [unfound, unchanged]
    rfl
  · have struck : c.host.checkIdle.2.idleFor? =
        some (c.host.session.tracker.idleFor c.host.now) := found
    have checked : c.host.checkIdle.1.session = { c.host.session with tracker :=
        (c.host.session.tracker.check c.host.session.config.idleTimeout c.host.now).1 } := rfl
    rw [changed] at checked
    rw [struck]
    refine .inr ⟨?_, inForce, long⟩
    exact struck_abort (h := (c.host.checkIdle.1.count .idleTimeout).log (Idle.expiryLine c.id _))
      _ rfl checked ((Host.record_note _ _ _).trans (List.append_nil _)) rfl rfl

theorem Minded.struck (minded : Minded past c) {after : Duration} (struck : Struck c d after) :
    Minded past d := by
  have activity : d.host.session.tracker.lastActivity = c.host.session.tracker.lastActivity := by
    rw [struck.tracker]
    rfl
  exact {
    writer := by rw [struck.outbox]; exact minded.writer
    origin := by rw [struck.tracker]; exact minded.origin
    whole := by rw [struck.now]; exact minded.whole
    gone := by rw [struck.now]; exact minded.gone
    before := by rw [activity]; exact minded.before
    latest := by rw [activity]; exact minded.latest
    early := by rw [activity, struck.now]; exact minded.early
    flagged := fun _ => struck.reason
    entries := by rw [struck.supervisor, struck.id]; exact minded.entries
    listed := by rw [struck.supervisor, struck.id, struck.phase]; exact minded.listed }

/-- A sweep lets no frame pass, and takes no time. -/
theorem Minded.sweep (minded : Minded past c) :
    Minded past c.sweep.1 ∧ c.sweep.1.host.passed = c.host.passed ∧
      c.sweep.1.host.now = c.host.now := by
  rcases minded.entries with none | listed
  · rw [sweep_of_unlisted none]
    exact ⟨minded, rfl, rfl⟩
  · rcases sweep_of_check listed with ⟨same, -⟩ | ⟨struck, -⟩
    · rw [same]
      exact ⟨minded, rfl, rfl⟩
    · exact ⟨minded.struck struck, struck.passed, struck.now⟩

/-! ### Whole runs -/

/-- The instant that the clock goes on to. -/
def Beat.shows? : Beat → Option Instant
  | .clock now _ => some now
  | .act _ | .step | .fetch => none

/-- The instants that the clock shows. -/
def clocks (bs : List Beat) : List Instant := bs.filterMap Beat.shows?

/-- The beat leaves the writer in its place, and the tracker to the connection and to sweeps. -/
def Beat.plain : Beat → Bool
  | .act x => x.atOnce && x.plain
  | .step | .fetch | .clock _ _ => true

theorem news_of_passed (same : d.host.passed = c.host.passed) : news c d = [] := by
  rw [news, same, List.drop_length, List.map_nil]

/-- One beat; the clock goes on to a whole millisecond. -/
theorem minded_beat (minded : Minded past c) {b : Beat} (plain : b.plain = true)
    (later : ∀ now, b.shows? = some now → c.host.now ≤ now ∧ 1000000 ∣ now) :
    Minded (past ++ news c (c.beat app b)) (c.beat app b) ∧
      (c.beat app b).host.now = b.shows?.getD c.host.now := by
  have quiet {d : Connection σ} (still : Minded past d) (passed : d.host.passed = c.host.passed) :
      Minded (past ++ news c d) d := by
    rw [news_of_passed passed, List.append_nil]
    exact still
  cases b with
  | step =>
    rw [beat]
    cases stepped : c.step app with
    | none => exact ⟨quiet minded rfl, rfl⟩
    | some e =>
      have goes := goes_step minded.writer stepped
      exact ⟨minded.goes goes, goes.passes.now⟩
  | fetch =>
    have goes := goes_fetch minded.writer
    exact ⟨minded.goes goes, goes.passes.now⟩
  | clock now sweepers =>
    obtain ⟨after, whole⟩ := later now rfl
    exact ⟨quiet (minded.clock after whole sweepers) rfl, rfl⟩
  | act x =>
    obtain ⟨atOnce, plain⟩ := Bool.and_eq_true_iff.mp plain
    cases sweeping : x.sweeps with
    | false =>
      have goes : Goes c (c.act app x).1 := goes_act minded.writer atOnce plain sweeping
      exact ⟨minded.goes goes, goes.passes.now⟩
    | true =>
      obtain ⟨swept, passed, now⟩ := minded.sweep
      cases x with
      | sweep => exact ⟨quiet swept passed, now⟩
      | startSweeping =>
        have started : Minded past c.startSweeping :=
          ⟨swept.writer, swept.origin, swept.whole, swept.gone, swept.before, swept.latest,
            swept.early, swept.flagged, swept.entries, swept.listed⟩
        exact ⟨quiet started passed, now⟩
      | _ => cases sweeping

/-- A whole run; the clock never goes back, and shows whole milliseconds only. -/
theorem minded_beats (minded : Minded past c) {bs : List Beat} (plain : ∀ b ∈ bs, b.plain = true)
    (forward : (c.host.now :: clocks bs).Pairwise (· ≤ ·))
    (whole : ∀ now ∈ clocks bs, 1000000 ∣ now) :
    Minded (past ++ traffic app c bs) (beats app c bs) := by
  induction bs generalizing c past with
  | nil =>
    rw [traffic, List.append_nil]
    exact minded
  | cons b bs ih =>
    have shown : clocks (b :: bs) = b.shows?.toList ++ clocks bs := by
      cases b <;> rfl
    rw [shown] at forward whole
    have onTime (now : Instant) (shows : b.shows? = some now) :
        c.host.now ≤ now ∧ 1000000 ∣ now := by
      rw [shows] at forward whole
      exact ⟨(List.pairwise_cons.mp forward).1 now List.mem_cons_self,
        whole now List.mem_cons_self⟩
    obtain ⟨next, now⟩ : Minded (past ++ news c (c.beat app b)) (c.beat app b) ∧ _ :=
      minded_beat minded (plain b List.mem_cons_self) onTime
    -- All that the clock shows later is later than what it shows after this beat.
    have later : ((c.beat app b).host.now :: clocks bs).Pairwise (· ≤ ·) := by
      rw [now]
      cases shows : b.shows? with
      | none =>
        rw [shows] at forward
        exact forward
      | some now =>
        rw [shows] at forward
        exact (List.pairwise_cons.mp forward).2
    have onward := ih next (fun b' mem => plain b' (List.mem_cons_of_mem b mem)) later
      fun now mem => whole now (List.mem_append_right _ mem)
    rw [List.append_assoc] at onward
    exact onward

/-! ### The driver's end -/

/-- The driver waits for a frame, for demand, or for an outcome that is not there. -/
def Awaits (c : Connection σ) : Prop :=
  match c.phase with
  | .reading _ => True
  | .opening | .serving _ => c.host.verdict = none
  | .idle | .starting | .finished _ => False

/-- It has ended with the failure, unless the application crashed over it. -/
def EndsBy (app : Application σ) (e : Failure) (c : Connection σ) : Prop :=
  c.phase = .finished (.failed e) ∨ ¬ app.Calm ∧ ∃ p, c.phase = .finished (.crashed p)

theorem endsBy_of_crash {r : Option Panic} {e : Failure} (calm : app.Calm → r = none) {p : Panic}
    (crashed : r = some p) : EndsBy app e (c.crash p) := by
  refine .inr ⟨fun quiet => ?_, p, ?_⟩
  · rw [calm quiet] at crashed
    cases crashed
  · unfold crash
    dsimp only
    split <;> rfl

theorem endsBy_unlessCrashed {r : Host σ × Option Panic} {e : Failure}
    (calm : app.Calm → r.2 = none) {next : Connection σ → Connection σ}
    (onward : EndsBy app e (next { c with host := r.1 })) :
    EndsBy app e (c.unlessCrashed r next) := by
  unfold unlessCrashed
  dsimp only
  split
  · next crashed => exact endsBy_of_crash calm crashed
  · exact onward

theorem endsBy_fail (app : Application σ) (c : Connection σ) (e : Failure) :
    EndsBy app e (c.fail app e) := by
  unfold fail
  refine endsBy_unlessCrashed (fun calm => Host.failed_crash calm _ e) ?_
  refine endsBy_unlessCrashed (fun calm => Host.closed_crash calm _ e.closeCode) ?_
  exact .inl (phase_leave _ _)

theorem turn_of_awaits {e : Failure} (awaits : c.Awaits)
    (reason : c.host.session.abortReason = some e) (going : c.host.shutdown = false) :
    c.turn app = some (c.fail app e) := by
  have taken (next : Connection σ → Connection σ) (none : c.host.verdict = none) :
      c.await app next = some (c.fail app e) := by
    unfold await awaited
    rw [none, reason]
  unfold Awaits at awaits
  unfold turn
  cases phase : c.phase with
  | idle | starting | finished _ =>
    rw [phase] at awaits
    exact awaits.elim
  | opening | serving f =>
    rw [phase] at awaits
    exact taken _ awaits
  | reading needsUnit =>
    dsimp only
    rw [receive, going, if_neg Bool.false_ne_true, reason]

/-- The driver is about to fail, or has done so. -/
def Bound (app : Application σ) (e : Failure) (c : Connection σ) : Prop :=
  EndsBy app e c ∨ c.Awaits ∧ c.host.session.abortReason = some e ∧ c.host.shutdown = false ∧
    .driver ∈ c.host.ready

theorem bound_step {e : Failure} (bound : c.Bound app e) (stepped : c.step app = some d) :
    d.Bound app e := by
  unfold step at stepped
  rcases bound with ended | ⟨awaits, reason, going, ready⟩
  · -- A driver that has ended makes no more moves.
    have still (phase : d.phase = c.phase) : d.Bound app e := by
      refine .inl ?_
      unfold EndsBy at ended ⊢
      rwa [phase]
    split at stepped
    · cases stepped
    · cases stepped
      exact still rfl
    · split at stepped
      · cases stepped
        exact still rfl
      · split at stepped
        · next turned =>
          rcases ended with ended | ⟨-, p, ended⟩
          all_goals
            rw [turn, ended] at turned
            cases turned
        · cases stepped
          exact still rfl
  · -- Waiters that come first, and the driver's lack of patience, only put the failure off.
    split at stepped
    · cases stepped
    · next n tasks queue =>
      cases stepped
      rw [queue] at ready
      have next : .driver ∈ tasks := by simpa using ready
      refine .inr ?_
      unfold serve
      split
      · next session taken =>
        rw [(Session.eq_of_take? taken).2]
        exact ⟨awaits, reason, going, next⟩
      · exact ⟨awaits, reason, going, next⟩
    · split at stepped
      · cases stepped
        exact .inr ⟨awaits, reason, going, Host.mem_enqueue.mpr (.inr rfl)⟩
      · rw [turn_of_awaits awaits reason going] at stepped
        cases stepped
        exact .inl (endsBy_fail app c e)

theorem endsBy_settle {e : Failure} (bound : c.Bound app e) : EndsBy app e (c.settle app) := by
  rcases settle_preserves (I := Bound app e) (fun _ _ => bound_step) bound with
    ended | ⟨-, -, -, ready⟩
  · exact ended
  · rw [ready_of_quiet (step_settle app c)] at ready
    cases ready

/-! ### Silence -/

/-- A frame has gone in or out within the time.  It passes when the clock shows, or, if that is later
    than milliseconds are counted, with the last of them. -/
def ActiveWithin (span : Duration) (now : Instant) (past : List (Instant × Frame)) : Prop :=
  ∃ m ∈ past, now < counted m.1 + span.nanos ∧ m.1 ≤ now

instance (span : Duration) (now : Instant) (past : List (Instant × Frame)) :
    Decidable (ActiveWithin span now past) :=
  inferInstanceAs (Decidable (∃ m ∈ past, _))

theorem Minded.idleFor_eq (minded : Minded past c) :
    c.host.session.tracker.idleFor c.host.now = ⟨c.host.now - lastPassed past⟩ := by
  rw [← minded.lastActivity_eq]
  rfl

/-- As much silence as was measured. -/
theorem Minded.silent_of_idleFor (minded : Minded past c) {span : Duration}
    (long : span.nanos ≤ (c.host.session.tracker.idleFor c.host.now).nanos) :
    ¬ActiveWithin span c.host.now past := by
  rintro ⟨m, mem, recent, -⟩
  have early := minded.early.trans (Idle.counted_le c.host.now)
  have old : counted m.1 + span.nanos ≤ c.host.now :=
    (Nat.add_le_add (minded.before m mem) long).trans (Nat.add_sub_of_le early).le
  exact Nat.not_lt.mpr old recent

/-- As much is measured as there was silence. -/
theorem Minded.idleFor_of_silent (minded : Minded past c) {span : Duration}
    (within : span.nanos ≤ c.host.now) (silent : ¬ActiveWithin span c.host.now past) :
    span.nanos ≤ (c.host.session.tracker.idleFor c.host.now).nanos := by
  refine Nat.le_sub_of_add_le ?_
  rcases minded.latest with created | ⟨m, mem, last⟩
  · rw [created]
    exact within
  · rw [← last, Nat.add_comm]
    exact Nat.not_lt.mp fun recent => silent ⟨m, mem, recent, minded.gone m mem⟩

/-- Traffic keeps a supervised connection alive, and only silence ends it: a sweep that aborts has
    found that no frame has passed for as long as the timeout in force, and a sweep that finds so
    aborts, with the time since the last frame; a driver that waits for something ends by that. -/
theorem silence_aborts (app : Application σ) (memory : σ) (handler : Handler) (id : ConnectionId)
    (config : Config) (interval : Duration) (house : House) (bs : List Beat)
    (plain : ∀ b ∈ bs, b.plain = true) (forward : (clocks bs).Pairwise (· ≤ ·))
    (whole : ∀ now ∈ clocks bs, 1000000 ∣ now) :
    let c := establish true memory handler id config interval house
    let past := traffic app c bs
    let d := beats app c bs
    let now := d.host.now
    let span := d.host.session.config.idleTimeout
    d.host.session.abortReason = none →
      (d.sweep.1.host.session.abortReason ≠ none →
        span ≠ .zero ∧ ¬ActiveWithin span now past) ∧
      ((∀ ending, d.phase ≠ .finished ending) → span ≠ .zero → span.nanos ≤ now →
        ¬ActiveWithin span now past →
          let e : Failure := .idleTimeout ⟨now - lastPassed past⟩
          d.sweep.1.host.session.abortReason = some e ∧
            (d.Awaits → d.host.shutdown = false → EndsBy app e (d.sweep.1.settle app))) := by
  intro c past d now span unaborted
  have minded : Minded past d :=
    minded_beats (minded_establish memory handler id config interval house) plain
      (List.pairwise_cons.mpr ⟨fun _ _ => Nat.zero_le _, forward⟩) whole
  refine ⟨fun aborted => ?_, fun unfinished inForce within silent => ?_⟩
  · rcases minded.entries with none | listed
    · rw [sweep_of_unlisted none] at aborted
      exact absurd unaborted aborted
    · rcases sweep_of_check listed with ⟨same, -⟩ | ⟨-, inForce, long⟩
      · rw [same] at aborted
        exact absurd unaborted aborted
      · exact ⟨inForce, minded.silent_of_idleFor long⟩
  · have long := minded.idleFor_of_silent within silent
    rcases sweep_of_check (minded.listed unfinished) with ⟨-, why⟩ | ⟨struck, -, -⟩
    · rcases why with flagged | off | early
      · exact absurd unaborted (minded.flagged flagged)
      · exact absurd off inForce
      · exact absurd long (Nat.not_le.mpr early)
    · rw [minded.idleFor_eq] at struck
      obtain ⟨reason, ready⟩ := struck.first unaborted
      refine ⟨reason, fun awaits going => endsBy_settle (.inr ⟨?_, reason, ?_, ready⟩)⟩
      · unfold Awaits at awaits ⊢
        rwa [struck.phase, struck.verdict]
      · rw [struck.shutdown]
        exact going

/-- A PING that the application keeps, two seconds of silence, and a timeout of one. -/
theorem silence_aborts_of_kept_ping :
    let app : Application Unit :=
      ⟨.none, fun s e => (s, ⟨[], if e = .opened then .succeed else .hold⟩), fun _ => false⟩
    let bs : List Beat :=
      [.act (.start false), .step, .step, .clock 1000000000 .none, .act (.arrive [.ping [7]]),
        .step, .act (.setIdleTimeout (.ofSeconds 1 0)), .clock 3000000000 .none]
    let c : Connection Unit := establish true () .direct ⟨1⟩ .standard (.ofSeconds 1 0) .empty
    traffic app c bs = [(1000000000, .ping [7])] ∧
      ((beats app c bs).sweep.1.settle app).phase =
        .finished (.failed (.idleTimeout (.ofSeconds 2 0))) := by
  intro app bs
  dsimp only
  obtain ⟨c, born⟩ : ∃ c : Connection Unit,
      establish true () .direct ⟨1⟩ .standard (.ofSeconds 1 0) .empty = c := ⟨_, rfl⟩
  obtain ⟨d, reached⟩ : ∃ d, beats app c bs = d := ⟨_, rfl⟩
  have plain : ∀ b ∈ bs, b.plain = true := by decide
  have forward : (clocks bs).Pairwise (· ≤ ·) := by decide
  have whole : ∀ now ∈ clocks bs, 1000000 ∣ now := by decide
  have calm : app.Calm := fun _ e p => by
    show (if e = .opened then Reply.succeed else .hold) ≠ .panic p
    split <;> nofun
  have passed : traffic app c bs = [(1000000000, .ping [7])] := by rw [← born]; decide
  have serving : d.phase = .serving (.ping [7]) := by rw [← reached, ← born]; decide
  have verdict : d.host.verdict = none := by rw [← reached, ← born]; decide
  have going : d.host.shutdown = false := by rw [← reached, ← born]; decide
  have unaborted : d.host.session.abortReason = none := by rw [← reached, ← born]; decide
  have span : d.host.session.config.idleTimeout = .ofSeconds 1 0 := by
    rw [← reached, ← born]
    decide
  have now : d.host.now = 3000000000 := by rw [← reached, ← born]; decide
  have awaits : d.Awaits := by
    rw [Awaits, serving]
    exact verdict
  have run := silence_aborts app () .direct ⟨1⟩ .standard (.ofSeconds 1 0) .empty bs plain
    forward whole
  rw [born] at run ⊢
  rw [reached]
  dsimp only at run
  rw [passed, reached, span, now] at run
  obtain ⟨-, ends⟩ := (run unaborted).2 (fun ending ended => nomatch serving.symm.trans ended)
    (by decide) (by decide) (by decide)
  have ended := (ends awaits going).resolve_right fun crashed => crashed.1 calm
  exact ⟨passed, ended⟩

end Connection

end WebSocketEngine
