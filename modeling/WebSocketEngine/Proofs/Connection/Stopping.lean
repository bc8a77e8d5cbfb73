import WebSocketEngine.Proofs.Connection.Awake
import WebSocketEngine.Proofs.Connection.Silence
import Mathlib.Data.List.ReduceOption

/-!
Abort and shutdown stop the driver.

Once the end was asked for, no frame is handed over, and it is settled how the connection ends as
soon as the driver has its next turn (`due?`):

    waiting, failure       failed with it
    waiting, success       closed with the code of the CLOSE; else as between frames
    waiting, no outcome    failed with the first reason to abort; else failed as cancelled
    between frames         closed as going away on a shutdown; else failed with the first reason

Nothing else ends it then, but for a crash (`due_of_finished`), and it does end (`endsAs_settle`).

A signal comes before a move of the driver, after it, or from the application that it calls.  It does
not come from the frames: they are there when the driver looks at the signals, and taking one runs
nobody's code (`receive`).
-/

namespace WebSocketEngine

variable {σ : Type}

/-! ### Frames and tolls -/

theorem Host.frames_eq (h : Host σ) : h.events.filterMap Call.frame? = h.tolls.reduceOption := by
  unfold Host.events Host.tolls Host.record List.reduceOption
  rw [List.filterMap_reverse, List.filterMap_reverse, List.filterMap_filterMap,
    List.filterMap_filterMap]
  refine congrArg (fun read => (h.journal.filterMap read).reverse) (funext fun n => ?_)
  cases n with
  | handed e => cases e <;> rfl
  | _ => rfl

/-- No frame is handed over, whatever units are taken. -/
theorem Host.Bears.frames {h k : Host σ} {ts : List (Option Frame)} (bears : Host.Bears ts h k)
    (units : ts.reduceOption = []) :
    k.events.filterMap Call.frame? = h.events.filterMap Call.frame? := by
  rw [k.frames_eq, h.frames_eq, bears.tolls, List.reduceOption_append, units, List.append_nil]

theorem Host.Bears.signalled {h k : Host σ} {ts : List (Option Frame)} (bears : Host.Bears ts h k)
    (signalled : h.signalled = true) : k.signalled = true := by
  unfold Host.signalled at signalled ⊢
  rcases Bool.or_eq_true_iff.mp signalled with aborted | stopping
  · obtain ⟨e, reason⟩ := Option.isSome_iff_exists.mp aborted
    rw [bears.reason e reason]
    rfl
  · rw [bears.stopping stopping]
    exact Bool.or_true _

namespace Connection

variable {app : Application σ} {c d : Connection σ} {before : List Call} {ending : Ending}

/-! ### How it ends -/

/-- The events at the handler when the connection ends. -/
def Ending.report : Ending → List Call
  | .closed code => [.closed code]
  | .failed e => [.failed e, .closed e.closeCode]
  | .crashed _ => []

/-- The end between two frames. -/
def dueBetween? (h : Host σ) : Option Ending :=
  if h.shutdown then some (.closed .goingAway) else h.session.abortReason.map .failed

/-- The end while an outcome is missing. -/
def dueWaiting? (h : Host σ) : Option Ending :=
  match h.session.abortReason with
  | some e => some (.failed e)
  | none => if h.shutdown then some (.failed .cancelled) else none

/-- The end that the driver comes to next, if the end was asked for. -/
def due? (c : Connection σ) : Option Ending :=
  match c.phase, c.host.verdict with
  | .idle, _ | .starting, _ | .finished _, _ => none
  | .reading _, _ | .opening, some (.ok _) => dueBetween? c.host
  | .serving f, some (.ok _) =>
    match f.closeCode with
    | some code => some (.closed code)
    | none => dueBetween? c.host
  | .opening, some (.error e) | .serving _, some (.error e) => some (.failed e)
  | .opening, none | .serving _, none => dueWaiting? c.host

/-- The application has crashed. -/
def Fell (app : Application σ) (d : Connection σ) : Prop :=
  ¬ app.Calm ∧ ∃ p, d.phase = .finished (.crashed p)

/-- The connection has ended after the events `before`, unless the application crashed over it. -/
def EndsAs (app : Application σ) (before : List Call) (ending : Ending) (d : Connection σ) : Prop :=
  d.phase = .finished ending ∧ d.host.events = before ++ ending.report ∨ Fell app d

theorem fell_of_crash {r : Option Panic} (calm : app.Calm → r = none) {p : Panic}
    (crashed : r = some p) : Fell app (c.crash p) := by
  refine ⟨fun quiet => ?_, p, ?_⟩
  · rw [calm quiet] at crashed
    cases crashed
  · unfold crash
    dsimp only
    split <;> rfl

theorem endsAs_unlessCrashed {r : Host σ × Option Panic} (calm : app.Calm → r.2 = none)
    {next : Connection σ → Connection σ}
    (onward : EndsAs app before ending (next { c with host := r.1 })) :
    EndsAs app before ending (c.unlessCrashed r next) := by
  unfold unlessCrashed
  dsimp only
  split
  · next crashed => exact .inr (fell_of_crash calm crashed)
  · exact onward

theorem endsAs_leave (events : c.host.events = before ++ ending.report) :
    EndsAs app before ending (c.leave ending) :=
  .inl ⟨phase_leave c ending, (congrArg Account.events (account_leave c ending)).trans events⟩

theorem events_log (h : Host σ) (l : Log.Line) : (h.log l).events = h.events :=
  (Host.record_note _ h _).trans (List.append_nil _)

theorem endsAs_finish (app : Application σ) (c : Connection σ) (code : CloseCode) :
    EndsAs app c.host.events (.closed code) (c.finish app code) := by
  unfold finish
  refine endsAs_unlessCrashed (fun calm => Host.closed_crash calm _ code) (endsAs_leave ?_)
  have closed : ((c.host.log (closedLine c.id code)).closed app code).1.events =
      (c.host.log (closedLine c.id code)).events ++ [.closed code] :=
    congrArg Host.Docket.events (Host.docket_closed _ code)
  rw [events_log] at closed
  exact closed

theorem endsAs_fail (app : Application σ) (c : Connection σ) (e : Failure) :
    EndsAs app c.host.events (.failed e) (c.fail app e) := by
  unfold fail
  refine endsAs_unlessCrashed (fun calm => Host.failed_crash calm _ e) ?_
  let h := (c.host.log (failedLine c.id e)).count (.failed e.label)
  have failed : (h.failed app e).1.events = c.host.events ++ [.failed e] :=
    (congrArg Host.Docket.events (Host.docket_failed h e)).trans
      (congrArg (fun es => es ++ [Call.failed e]) (events_log c.host _))
  refine endsAs_unlessCrashed (fun calm => Host.closed_crash calm _ e.closeCode) (endsAs_leave ?_)
  have closed : ((sendClose (h.failed app e).1 e.closeCode (CloseReason.ofFailure e)).closed app
      e.closeCode).1.events = (sendClose (h.failed app e).1 e.closeCode
        (CloseReason.ofFailure e)).events ++ [.closed e.closeCode] :=
    congrArg Host.Docket.events (Host.docket_closed _ e.closeCode)
  rw [(sends_sendClose _ _ _).events, failed, List.append_assoc] at closed
  exact closed

theorem endsAs_finishShutdown (app : Application σ) (c : Connection σ) :
    EndsAs app c.host.events (.closed .goingAway) (c.finishShutdown app) := by
  have ends := endsAs_finish app
    { c with host := sendClose c.host .goingAway shutdownReason } .goingAway
  rwa [show (sendClose c.host .goingAway shutdownReason).events = c.host.events from
    (sends_sendClose _ _ _).events] at ends

/-! ### What is due -/

theorem dueBetween?_eq_none {h : Host σ} : dueBetween? h = none ↔ h.signalled = false := by
  rw [Host.signalled_eq_false, dueBetween?]
  cases h.shutdown <;> simp

theorem dueWaiting?_eq_none {h : Host σ} : dueWaiting? h = none ↔ h.signalled = false := by
  rw [Host.signalled_eq_false, dueWaiting?]
  cases h.session.abortReason <;> cases h.shutdown <;> simp

/-- What is due goes by the phase, by the outcome and by what was asked for. -/
theorem due?_congr (phase : d.phase = c.phase) (verdict : d.host.verdict = c.host.verdict)
    (reason : d.host.session.abortReason = c.host.session.abortReason)
    (stopping : d.host.shutdown = c.host.shutdown) : d.due? = c.due? := by
  unfold due? dueBetween? dueWaiting?
  rw [phase, verdict, reason, stopping]

/-- Where something is due, the driver lacks nothing. -/
theorem due?_of_lacks (lacks : c.Lacks) : c.due? = none := by
  unfold Lacks at lacks
  unfold due?
  cases phase : c.phase with
  | idle | starting | finished _ => rfl
  | opening | serving f =>
    rw [phase] at lacks
    rw [lacks.1]
    exact dueWaiting?_eq_none.mpr lacks.2
  | reading needsUnit =>
    rw [phase] at lacks
    cases needsUnit <;> exact dueBetween?_eq_none.mpr lacks.1

/-- The outcome that stands in for a callback is what is due. -/
theorem due?_of_awaited {e : Failure} (awaits : c.phase.awaits = true)
    (outcome : awaited c.host = some (.error e)) : c.due? = some (.failed e) := by
  have due : (match c.host.verdict with
      | some (.error e) => some (.failed e)
      | some (.ok _) => none
      | none => dueWaiting? c.host) = some (Ending.failed e) := by
    unfold awaited at outcome
    unfold dueWaiting?
    cases verdict : c.host.verdict with
    | some o =>
      rw [verdict] at outcome
      cases outcome
      rfl
    | none =>
      rw [verdict] at outcome
      cases reason : c.host.session.abortReason with
      | some e =>
        rw [reason] at outcome
        cases outcome
        rfl
      | none =>
        rw [reason] at outcome
        dsimp only at outcome ⊢
        split at outcome
        · next stopping =>
          cases outcome
          rw [if_pos stopping]
        · cases outcome
  unfold due?
  cases phase : c.phase with
  | idle | starting | reading _ | finished _ =>
    rw [phase] at awaits
    cases awaits
  | opening | serving f =>
    cases verdict : c.host.verdict with
    | none =>
      rw [verdict] at due
      exact due
    | some o =>
      rw [verdict] at due
      cases o with
      | ok u => cases due
      | error e => exact due

/-- What the driver's move comes to, once the end was asked for. -/
inductive Comes (app : Application σ) (c d : Connection σ) : Prop
  | crashes (fell : Fell app d)
  | ends {ending : Ending} (due : c.due? = some ending)
      (ends : EndsAs app c.host.events ending d)
  | goesOn (running : d.running = true)
      (same : ∀ ending, c.due? = some ending →
        d.due? = some ending ∧ d.host.events = c.host.events)

theorem comes_of_way (signalled : c.host.signalled = true) (way : Way app c d) :
    Comes app c d := by
  have unfree (free : c.host.signalled = false) : Comes app c d := by
    rw [signalled] at free
    cases free
  cases way with
  | enters starting =>
    unfold enter
    dsimp only
    unfold unlessCrashed
    dsimp only
    split
    · next crashed =>
      exact .crashes (fell_of_crash (fun calm => Host.opened_crash calm _ _) crashed)
    · refine .goesOn rfl fun ending due => ?_
      rw [due?, starting] at due
      cases due
  | opens opening verdict =>
    refine .goesOn rfl fun ending due => ⟨?_, rfl⟩
    rw [due?, opening, verdict] at due
    exact due
  | @concludes f serving verdict =>
    have pong := sends_sendPong c.host f
    unfold conclude
    split
    · next code closes =>
      have close := sends_sendClose (sendPong c.host f) code ""
      have ends := endsAs_finish app
        { c with patience := c.patience - 1, host := sendClose (sendPong c.host f) code "" } code
      rw [show (sendClose (sendPong c.host f) code "").events = c.host.events from
        close.events.trans pong.events] at ends
      refine .ends ?_ ends
      rw [due?, serving, verdict]
      dsimp only
      rw [closes]
    · next unclosed =>
      refine .goesOn rfl fun ending due => ⟨?_, pong.events⟩
      rw [due?, serving, verdict] at due
      dsimp only at due
      rw [unclosed] at due
      rw [← due]
      have stopping : (sendPong c.host f).shutdown = c.host.shutdown :=
        congrArg (·.shutdown) pong.still
      have reason : (sendPong c.host f).session.abortReason = c.host.session.abortReason :=
        congrArg (·.session.abortReason) pong.still
      show dueBetween? (sendPong c.host f) = dueBetween? c.host
      rw [dueBetween?, stopping, reason, dueBetween?]
  | fails awaits outcome => exact .ends (due?_of_awaited awaits outcome) (endsAs_fail app c _)
  | stops reading stopping =>
    refine .ends ?_ (endsAs_finishShutdown app c)
    rw [due?, reading, dueBetween?, if_pos stopping]
  | aborts reading going reason =>
    refine .ends ?_ (endsAs_fail app c _)
    rw [due?, reading, dueBetween?, going, reason]
    rfl
  | takes _ free _ | hands _ free _ | runsOut _ free _ _ => exact unfree free

/-! ### Steps -/

/-- A step that is no move of the driver. -/
structure Idles (c d : Connection σ) : Prop where
  phase : d.phase = c.phase
  due : d.due? = c.due?
  events : d.host.events = c.host.events
  awake : c.due? ≠ none → .driver ∈ c.host.ready → .driver ∈ d.host.ready

theorem serve_still (h : Host σ) (n : Nat) :
    (serve h n).verdict = h.verdict ∧
      (serve h n).session.abortReason = h.session.abortReason ∧
      (serve h n).shutdown = h.shutdown ∧ (serve h n).events = h.events := by
  unfold serve
  split
  · next session taken =>
    rw [(Session.eq_of_take? taken).2]
    exact ⟨rfl, rfl, rfl, (Host.record_note _ _ _).trans (List.append_nil _)⟩
  · exact ⟨rfl, rfl, rfl, rfl⟩

theorem idles_serve {n : Nat} {tasks : List Task} (queue : c.host.ready = .waiter n :: tasks) :
    Idles c { c with host := serve { c.host with ready := tasks } n } := by
  obtain ⟨verdict, reason, stopping, events⟩ := serve_still { c.host with ready := tasks } n
  exact ⟨rfl, due?_congr rfl verdict reason stopping, events,
    fun _ => (nudges_serve queue).tells.firm.awake⟩

theorem Pace.cases (pace : Pace app c d) : Way app c d ∨ Idles c d := by
  cases pace with
  | turns ready way => exact .inl way
  | serves queue => exact .inr (idles_serve queue)
  | yields queue tired =>
    exact .inr ⟨rfl, due?_congr rfl rfl rfl rfl, rfl, fun _ _ => Host.mem_enqueue.mpr (.inr rfl)⟩
  | rests queue lacks =>
    refine .inr ⟨rfl, ?_, ?_, fun due _ => (due (due?_of_lacks lacks)).elim⟩
    · unfold rest
      split <;> exact due?_congr rfl rfl rfl rfl
    · show (c.rest _).events = _
      unfold rest
      split <;> rfl

/-- The connection is about to end so, or has done so. -/
def Facing (app : Application σ) (before : List Call) (ending : Ending) (c : Connection σ) : Prop :=
  EndsAs app before ending c ∨ c.due? = some ending ∧ c.host.events = before ∧
    c.host.signalled = true ∧ .driver ∈ c.host.ready

theorem facing_step (facing : c.Facing app before ending) (stepped : c.step app = some d) :
    d.Facing app before ending := by
  have pace := pace_of_step stepped
  rcases facing with ended | ⟨due, events, signalled, ready⟩
  · -- A driver that has ended makes no more moves.
    refine .inl ?_
    have idling {last : Ending} (finished : c.phase = .finished last) : Idles c d := by
      refine pace.cases.resolve_left fun way => ?_
      have running := way.running
      rw [Connection.running, finished] at running
      cases running
    rcases ended with ⟨finished, events⟩ | ⟨rough, p, finished⟩
    · have idles := idling finished
      exact .inl ⟨idles.phase.trans finished, idles.events.trans events⟩
    · exact .inr ⟨rough, p, (idling finished).phase.trans finished⟩
  · obtain ⟨_, _, bears⟩ := pays_beat app c (b := .step) rfl
    rw [beat, stepped] at bears
    rcases pace.cases with way | idles
    · cases comes_of_way signalled way with
      | crashes fell => exact .inl (.inr fell)
      | ends due' ends =>
        cases due.symm.trans due'
        rw [events] at ends
        exact .inl ends
      | goesOn running same =>
        obtain ⟨due, kept⟩ := same ending due
        obtain ⟨_, _, firm⟩ := way.firm
        exact .inr ⟨due, kept.trans events, bears.signalled signalled, firm.awake ready⟩
    · have some_ : c.due? ≠ none := by rw [due]; exact Option.some_ne_none _
      exact .inr ⟨idles.due.trans due, idles.events.trans events, bears.signalled signalled,
        idles.awake some_ ready⟩

/-- What is due comes about. -/
theorem endsAs_settle (awake : c.Awake) (signalled : c.host.signalled = true)
    (due : c.due? = some ending) : EndsAs app c.host.events ending (c.settle app) := by
  have ready : .driver ∈ c.host.ready := by
    refine awake.resolve_right fun ⟨lacks, _⟩ => ?_
    rw [due?_of_lacks lacks] at due
    cases due
  rcases settle_preserves (I := Facing app c.host.events ending) (fun _ _ => facing_step)
      (.inr ⟨due, rfl, signalled, ready⟩) with ended | ⟨-, -, -, ready⟩
  · exact ended
  · rw [ready_of_quiet (step_settle app c)] at ready
    cases ready

/-! ### From beat to beat -/

/-- The handler is given no frame, or the driver has found no signal and hands the next one over. -/
def Hands (app : Application σ) (c d : Connection σ) : Prop :=
  d.host.events.filterMap Call.frame? = c.host.events.filterMap Call.frame? ∨
    c.host.signalled = false ∧ ∃ f rest, c.inbound = f :: rest ∧
      d = { c with inbound := rest }.dispatch app f

theorem hands_of_way (way : Way app c d) : Hands app c d := by
  have spared {ts : List (Option Frame)} (firm : Host.Firm ts c.host d.host)
      (units : ts.reduceOption = []) : Hands app c d := .inl (firm.frames units)
  cases way with
  | hands reading free arrived => exact .inr ⟨free, _, _, arrived, rfl⟩
  | enters => exact spared (firm_enter app c) rfl
  | opens => exact spared (Host.firm_refl _) rfl
  | concludes => exact spared (firm_conclude app { c with patience := c.patience - 1 } _) rfl
  | fails | aborts | runsOut => exact spared (firm_fail app c _) rfl
  | stops => exact spared (firm_finishShutdown app c) rfl
  | @takes session reading free taken =>
    exact spared ((firm_take taken).trans (Host.firm_note { c.host with session } .took)) rfl

theorem hands_beat (app : Application σ) (c : Connection σ) {b : Beat} (atOnce : b.atOnce = true) :
    Hands app c (c.beat app b) := by
  have nudged {d : Connection σ} (nudges : Nudges c d) : Hands app c d :=
    .inl (nudges.tells.firm.frames rfl)
  cases b with
  | act x => exact nudged (nudges_act app c atOnce)
  | fetch => exact nudged (nudges_fetch c)
  | clock now sweepers => exact nudged (nudges_clock c now sweepers)
  | step =>
    rw [beat]
    cases stepped : c.step app with
    | none => exact .inl rfl
    | some d =>
      rcases (pace_of_step stepped).cases with way | idles
      · exact hands_of_way way
      · exact .inl (congrArg (List.filterMap Call.frame?) idles.events)

theorem bears_beats (app : Application σ) {bs : List Beat} (atOnce : ∀ b ∈ bs, b.atOnce = true)
    (signalled : c.host.signalled = true) : Host.Bears [] c.host (beats app c bs).host := by
  induction bs generalizing c with
  | nil => exact (Host.firm_refl _).toBears
  | cons b bs ih =>
    obtain ⟨ts, pays, bears⟩ := pays_beat app c (atOnce b List.mem_cons_self)
    have free : ts = [] := by
      cases pays with
      | nothing _ _ => rfl
      | unit free _ _ | frame free _ _ =>
        rw [signalled] at free
        cases free
    subst free
    exact bears.trans
      (ih (fun b mem => atOnce b (List.mem_cons_of_mem _ mem)) (bears.signalled signalled))

/-- What is over stays over, and the handler is given no further event. -/
theorem over_beat {w : Watch} (follows : Follows w c) (finished : c.phase = .finished ending)
    {b : Beat} (atOnce : b.atOnce = true) :
    (c.beat app b).phase = .finished ending ∧ (c.beat app b).host.events = c.host.events := by
  have nudged {d : Connection σ} (nudges : Nudges c d) : d.phase = .finished ending := by
    rcases nudges.phase with same | ⟨idle, -⟩
    · exact same.trans finished
    · cases idle.symm.trans finished
  cases b with
  | act x => exact ⟨nudged (nudges_act app c atOnce), events_act app follows atOnce⟩
  | fetch => exact ⟨nudged (nudges_fetch c), congrArg Host.Docket.events (aside_fetch c).docket⟩
  | clock now sweepers => exact ⟨finished, rfl⟩
  | step =>
    rw [beat]
    cases stepped : c.step app with
    | none => exact ⟨finished, rfl⟩
    | some d =>
      rcases (pace_of_step stepped).cases with way | idles
      · have running := way.running
        rw [Connection.running, finished] at running
        cases running
      · exact ⟨idles.phase.trans finished, idles.events⟩

theorem over_beats {w : Watch} (follows : Follows w c) (finished : c.phase = .finished ending)
    {bs : List Beat} (atOnce : ∀ b ∈ bs, b.atOnce = true) :
    (beats app c bs).phase = .finished ending ∧ (beats app c bs).host.events = c.host.events := by
  induction bs generalizing c w with
  | nil => exact ⟨finished, rfl⟩
  | cons b bs ih =>
    have first := atOnce b List.mem_cons_self
    obtain ⟨still, events⟩ : (c.beat app b).phase = .finished ending ∧ _ :=
      over_beat follows finished first
    obtain ⟨last, same⟩ := ih (kept_beat app follows first).follows still fun b mem =>
      atOnce b (List.mem_cons_of_mem _ mem)
    exact ⟨last, same.trans events⟩

/-- A beat that ends a connection is the driver's, and then the end was due. -/
theorem due_of_beat (signalled : c.host.signalled = true)
    (unfinished : ∀ ending, c.phase ≠ .finished ending) {b : Beat} (atOnce : b.atOnce = true)
    (finished : (c.beat app b).phase = .finished ending) :
    (¬ app.Calm ∧ ∃ p, ending = .crashed p) ∨
      b = .step ∧ c.due? = some ending ∧
        (c.beat app b).host.events = c.host.events ++ ending.report := by
  have unnudged {d : Connection σ} (nudges : Nudges c d) : d.phase ≠ .finished ending := by
    rcases nudges.phase with same | ⟨-, starting⟩
    · rw [same]
      exact unfinished ending
    · rw [starting]
      exact Phase.noConfusion
  cases b with
  | act x => exact (unnudged (nudges_act app c atOnce) finished).elim
  | fetch => exact (unnudged (nudges_fetch c) finished).elim
  | clock now sweepers => exact (unnudged (nudges_clock c now sweepers) finished).elim
  | step =>
    rw [beat] at finished ⊢
    cases stepped : c.step app with
    | none =>
      rw [stepped] at finished
      exact (unfinished ending finished).elim
    | some d =>
      rw [stepped] at finished
      have fallen (fell : Fell app d) : ¬ app.Calm ∧ ∃ p, ending = .crashed p := by
        obtain ⟨rough, p, crashed⟩ := fell
        cases finished.symm.trans crashed
        exact ⟨rough, p, rfl⟩
      rcases (pace_of_step stepped).cases with way | idles
      · cases comes_of_way signalled way with
        | crashes fell => exact .inl (fallen fell)
        | ends due ends =>
          rcases ends with ⟨ended, events⟩ | fell
          · cases finished.symm.trans ended
            exact .inr ⟨rfl, due, events⟩
          · exact .inl (fallen fell)
        | goesOn running _ =>
          rw [Connection.running, show d.phase = _ from finished] at running
          cases running
      · exact (unfinished ending (idles.phase.symm.trans finished)).elim

theorem due_of_finished {w : Watch} (follows : Follows w c) (signalled : c.host.signalled = true)
    (unfinished : ∀ ending, c.phase ≠ .finished ending) {bs : List Beat}
    (atOnce : ∀ b ∈ bs, b.atOnce = true) (finished : (beats app c bs).phase = .finished ending) :
    (¬ app.Calm ∧ ∃ p, ending = .crashed p) ∨
      ∃ pre post, bs = pre ++ .step :: post ∧ (beats app c pre).due? = some ending ∧
        (beats app c bs).host.events = (beats app c pre).host.events ++ ending.report := by
  induction bs generalizing c w with
  | nil => exact (unfinished ending finished).elim
  | cons b bs ih =>
    have first := atOnce b List.mem_cons_self
    have later : ∀ b ∈ bs, b.atOnce = true := fun b mem => atOnce b (List.mem_cons_of_mem _ mem)
    have follows' := (kept_beat app follows first).follows
    have bears : Host.Bears [] c.host (c.beat app b).host :=
      bears_beats app (List.forall_mem_singleton.mpr first) signalled
    by_cases ended : ∃ last, (c.beat app b).phase = .finished last
    · obtain ⟨last, ended⟩ := ended
      obtain ⟨still, events⟩ := over_beats follows' ended later
      cases finished.symm.trans still
      rcases due_of_beat signalled unfinished first ended with crashed | ⟨rfl, due, reported⟩
      · exact .inl crashed
      · exact .inr ⟨[], bs, rfl, due, events.trans reported⟩
    · rcases ih follows' (bears.signalled signalled) (fun last now => ended ⟨last, now⟩) later
          finished with crashed | ⟨pre, post, rfl, due, events⟩
      · exact .inl crashed
      · exact .inr ⟨b :: pre, post, rfl, due, events⟩

/-! ### Every schedule -/

/-- A frame is handed over only by a driver that has found no signal, one frame at a time and before
    the application hears of it.  From the moment at which the end was asked for, by aborts or a
    shutdown in any order, none is, and the first reason to abort stays.  A connection that nobody
    can take further is over.  What is due to it at any time comes about if it is left alone; and if
    it ends, then in a step of the driver, with what was due just before, or by a crash of the
    application.  The frames are there when the driver looks at the signals, and to take one runs
    nobody's code (`receive`); a source of frames that signals while it is asked for one is left
    out. -/
theorem signals_stop (app : Application σ) (supervised : Bool) (memory : σ) (handler : Handler)
    (id : ConnectionId) (config : Config) (interval : Duration) (house : House)
    (bs more : List Beat) (atOnce : ∀ b ∈ bs ++ more, b.atOnce = true) :
    let c := beats app (establish supervised memory handler id config interval house) bs
    let d := beats app c more
    (∀ b, b.atOnce = true → Hands app c (c.beat app b)) ∧
    (c.host.signalled = true →
      d.host.events.filterMap Call.frame? = c.host.events.filterMap Call.frame? ∧
      (∀ e, c.host.session.abortReason = some e → d.host.session.abortReason = some e) ∧
      (c.host.shutdown = true → d.host.shutdown = true) ∧
      (d.step app = none → d.running = false) ∧
      (∀ ending, d.due? = some ending → EndsAs app d.host.events ending (d.settle app)) ∧
      ((∀ ending, c.phase ≠ .finished ending) → ∀ ending, d.phase = .finished ending →
        (¬ app.Calm ∧ ∃ p, ending = .crashed p) ∨
          ∃ pre post, more = pre ++ .step :: post ∧ (beats app c pre).due? = some ending ∧
            d.host.events = (beats app c pre).host.events ++ ending.report)) := by
  intro c d
  refine ⟨fun b atOnce => hands_beat app c atOnce, fun signalled => ?_⟩
  have early : ∀ b ∈ bs, b.atOnce = true := fun b mem => atOnce b (List.mem_append_left _ mem)
  have late : ∀ b ∈ more, b.atOnce = true := fun b mem => atOnce b (List.mem_append_right _ mem)
  obtain ⟨follows, -⟩ := follows_beats app
    (follows_establish supervised memory handler id config interval house) early
  have awake : d.Awake := awake_beats
    (awake_beats (awake_establish supervised memory handler id config interval house) early) late
  have bears := bears_beats app late signalled
  refine ⟨bears.frames rfl, bears.reason, bears.stopping, fun quiet => ?_, fun ending due => ?_,
    fun unfinished ending finished => due_of_finished follows signalled unfinished late finished⟩
  · rw [Bool.eq_false_iff]
    intro running
    have unsignalled := (awake.lacks quiet).unsignalled running
    rw [bears.signalled signalled] at unsignalled
    cases unsignalled
  · exact endsAs_settle awake (bears.signalled signalled) due

/-- A PING that the application keeps, a frame that waits behind it, an abort, a shutdown and a
    second abort. -/
theorem signals_stop_of_kept_ping :
    let app : Application Unit :=
      ⟨.none, fun s e => (s, ⟨[], if e = .opened then .succeed else .hold⟩), fun _ => false⟩
    let e : Failure := .transport "first"
    let bs : List Beat := [.act (.start false), .step, .step, .act (.arrive [.ping [7], .pong []]),
      .step, .act (.abort e)]
    let more : List Beat := [.act .shutdown, .act (.abort (.transport "second")), .step, .step]
    let c := beats app (establish false () .direct ⟨1⟩ .standard .zero .empty) bs
    let d := beats app c more
    (∀ b ∈ bs ++ more, b.atOnce = true) ∧ c.host.signalled = true ∧
      d.phase = .finished (.failed e) ∧ d.host.session.abortReason = some e ∧
      d.host.events.filterMap Call.frame? = [.ping [7]] ∧
      ∃ pre post, more = pre ++ .step :: post ∧
        (beats app c pre).due? = some (.failed e) ∧
        d.host.events = (beats app c pre).host.events ++ [.failed e, .closed e.closeCode] := by
  intro app e bs more
  dsimp only
  obtain ⟨c, reached⟩ : ∃ c : Connection Unit,
      beats app (establish false () .direct ⟨1⟩ .standard .zero .empty) bs = c := ⟨_, rfl⟩
  obtain ⟨d, ended⟩ : ∃ d, beats app c more = d := ⟨_, rfl⟩
  have atOnce : ∀ b ∈ bs ++ more, b.atOnce = true := by decide
  have signalled : c.host.signalled = true := by rw [← reached]; decide
  have begun : c.host.session.abortReason = some e := by rw [← reached]; decide
  have handed : c.host.events.filterMap Call.frame? = [.ping [7]] := by rw [← reached]; decide
  have serving : c.phase = .serving (.ping [7]) := by rw [← reached]; decide
  have finished : d.phase = .finished (.failed e) := by rw [← ended, ← reached]; decide
  have run := signals_stop app false () .direct ⟨1⟩ .standard .zero .empty bs more atOnce
  dsimp only at run
  rw [reached] at run ⊢
  rw [ended] at run ⊢
  obtain ⟨frames, reason, -, -, -, last⟩ := run.2 signalled
  refine ⟨atOnce, signalled, finished, reason e begun, frames.trans handed, ?_⟩
  refine (last (fun ending finished => ?_) _ finished).resolve_left fun crashed => ?_
  · rw [serving] at finished
    cases finished
  · obtain ⟨-, p, same⟩ := crashed
    cases same

end Connection

end WebSocketEngine
