import WebSocketEngine.Proofs.Connection.Order
import WebSocketEngine.Proofs.Host.Working

/-!
The ways of the driver.

A move of the driver is one of nine things, each with all that holds when it is done (`Way`); where
there is no move, what the driver waits for is not there (`Lacks`).

    starting          enters
    opening           opens, or fails
    serving f         concludes f, or fails
    reading true      takes a unit, stops, or fails
    reading false     hands a frame over, stops, or fails

A step is a move of the driver or of a waiter, or the driver gives way or rests (`Pace`).  Of all of
these only two pay a toll: a unit is taken, a frame is handed over (`Way.firm`).
-/

namespace WebSocketEngine

variable {σ : Type}

namespace Host

/-- The end was asked for, by an abort or a shutdown. -/
def signalled (h : Host σ) : Bool := h.session.abortReason.isSome || h.shutdown

theorem signalled_eq_false {h : Host σ} :
    h.signalled = false ↔ h.session.abortReason = none ∧ h.shutdown = false := by
  rw [signalled, Bool.or_eq_false_iff, Option.isSome_eq_false_iff, Option.isNone_iff_eq_none]

end Host

namespace Connection

open Completion (fullPatience)

variable {app : Application σ} {c d : Connection σ} {ts : List (Option Frame)}

/-! ### Moves -/

/-- A move of the driver. -/
inductive Way (app : Application σ) (c : Connection σ) : Connection σ → Prop
  | enters (starting : c.phase = .starting) : Way app c (c.enter app)
  | opens (opening : c.phase = .opening) (verdict : c.host.verdict = some (.ok ())) :
    Way app c ({ c with patience := c.patience - 1 }.read app)
  | concludes {f : Frame} (serving : c.phase = .serving f)
      (verdict : c.host.verdict = some (.ok ())) :
    Way app c ({ c with patience := c.patience - 1 }.conclude app f)
  /-- The outcome that it waits for is a failure, or a signal takes its place. -/
  | fails {e : Failure} (awaits : c.phase.awaits = true)
      (outcome : awaited c.host = some (.error e)) : Way app c (c.fail app e)
  | stops {needsUnit : Bool} (reading : c.phase = .reading needsUnit)
      (stopping : c.host.shutdown = true) : Way app c (c.finishShutdown app)
  | aborts {needsUnit : Bool} {e : Failure} (reading : c.phase = .reading needsUnit)
      (going : c.host.shutdown = false) (reason : c.host.session.abortReason = some e) :
    Way app c (c.fail app e)
  | takes {session : Session} (reading : c.phase = .reading true)
      (free : c.host.signalled = false) (taken : c.host.session.take? = some session) :
    Way app c { c with host := { c.host with session }.note .took, phase := .reading false }
  | hands {f : Frame} {rest : List Frame} (reading : c.phase = .reading false)
      (free : c.host.signalled = false) (arrived : c.inbound = f :: rest) :
    Way app c ({ c with inbound := rest }.dispatch app f)
  /-- No more frames will arrive. -/
  | runsOut (reading : c.phase = .reading false) (free : c.host.signalled = false)
      (empty : c.inbound = []) (ended : c.ended = true) :
    Way app c (c.fail app withoutClose)

/-- Only a callback that has succeeded lets the driver go on. -/
theorem verdict_of_awaited {h : Host σ} {u : Unit} (outcome : awaited h = some (.ok u)) :
    h.verdict = some (.ok ()) := by
  unfold awaited at outcome
  split at outcome
  · next verdict =>
    rw [verdict]
    exact outcome
  · cases outcome
  · split at outcome <;> cases outcome

theorem way_of_await {next : Connection σ → Connection σ} (awaits : c.phase.awaits = true)
    (turned : c.await app next = some d)
    (onward : c.host.verdict = some (.ok ()) →
      Way app c (next { c with patience := c.patience - 1 })) : Way app c d := by
  unfold await at turned
  split at turned
  · cases turned
  · next outcome =>
    cases turned
    exact onward (verdict_of_awaited outcome)
  · next outcome =>
    cases turned
    exact .fails awaits outcome

theorem way_of_receive {needsUnit : Bool} (reading : c.phase = .reading needsUnit)
    (turned : c.receive app needsUnit = some d) : Way app c d := by
  unfold receive at turned
  split at turned
  · next stopping =>
    cases turned
    exact .stops reading stopping
  · next going =>
    have going : c.host.shutdown = false := Bool.eq_false_iff.mpr going
    split at turned
    · next reason =>
      cases turned
      exact .aborts reading going reason
    · next unaborted =>
      have free := Host.signalled_eq_false.mpr ⟨unaborted, going⟩
      cases needsUnit with
      | true =>
        obtain ⟨session, taken, rfl⟩ := Option.map_eq_some_iff.mp turned
        exact .takes reading free taken
      | false =>
        rw [if_neg Bool.false_ne_true] at turned
        split at turned
        · next arrived =>
          cases turned
          exact .hands reading free arrived
        · next empty =>
          split at turned
          · next ended =>
            cases turned
            exact .runsOut reading free empty ended
          · cases turned

/-- Every move of the driver is one of these. -/
theorem way_of_turn (turned : c.turn app = some d) : Way app c d := by
  unfold turn at turned
  split at turned
  · cases turned
  · cases turned
  · next starting =>
    cases turned
    exact .enters starting
  · next opening =>
    exact way_of_await (by rw [opening]; rfl) turned fun verdict => .opens opening verdict
  · next f serving =>
    exact way_of_await (by rw [serving]; rfl) turned fun verdict => .concludes serving verdict
  · next needsUnit reading => exact way_of_receive reading turned

/-- Each of these is a move of the driver. -/
theorem turn_of_way (way : Way app c d) : c.turn app = some d := by
  have received {needsUnit : Bool} (reading : c.phase = .reading needsUnit) :
      c.turn app = c.receive app needsUnit := by rw [turn, reading]
  cases way with
  | enters starting => rw [turn, starting]
  | opens opening verdict => simp only [turn, opening, await, awaited, verdict]
  | concludes serving verdict => simp only [turn, serving, await, awaited, verdict]
  | fails awaits outcome =>
    cases phase : c.phase with
    | opening | serving f => simp only [turn, phase, await, outcome]
    | idle | starting | reading _ | finished _ =>
      rw [phase] at awaits
      cases awaits
  | stops reading stopping => rw [received reading, receive, if_pos stopping]
  | aborts reading going reason => simp [received reading, receive, going, reason]
  | takes reading free taken =>
    obtain ⟨unaborted, going⟩ := Host.signalled_eq_false.mp free
    simp [received reading, receive, going, unaborted, taken]
  | hands reading free arrived =>
    obtain ⟨unaborted, going⟩ := Host.signalled_eq_false.mp free
    simp [received reading, receive, going, unaborted, arrived]
  | runsOut reading free empty ended =>
    obtain ⟨unaborted, going⟩ := Host.signalled_eq_false.mp free
    simp [received reading, receive, going, unaborted, empty, ended]

/-- The driver has one move at most. -/
theorem Way.unique {e : Connection σ} (way : Way app c d) (other : Way app c e) : e = d :=
  Option.some.inj ((turn_of_way other).symm.trans (turn_of_way way))

/-! ### No move -/

/-- What the driver waits for is not there. -/
def Lacks (c : Connection σ) : Prop :=
  match c.phase with
  | .idle | .finished _ => True
  | .starting => False
  | .opening | .serving _ => c.host.verdict = none ∧ c.host.signalled = false
  | .reading true => c.host.signalled = false ∧ c.host.session.demand = 0
  | .reading false => c.host.signalled = false ∧ c.inbound = [] ∧ c.ended = false

theorem awaited_eq_none {h : Host σ} :
    awaited h = none ↔ h.verdict = none ∧ h.signalled = false := by
  rw [Host.signalled_eq_false, awaited]
  cases verdict : h.verdict with
  | some o => simp
  | none =>
    cases reason : h.session.abortReason with
    | some e => simp
    | none => cases stopping : h.shutdown <;> simp

theorem await_eq_none {next : Connection σ → Connection σ} :
    c.await app next = none ↔ c.host.verdict = none ∧ c.host.signalled = false := by
  rw [← awaited_eq_none]
  unfold await
  split
  · next nothing => exact iff_of_true rfl nothing
  · next outcome => simp [outcome]
  · next outcome => simp [outcome]

theorem take?_eq_none {s : Session} : s.take? = none ↔ s.demand = 0 := by
  unfold Session.take?
  split
  · next none => exact iff_of_true rfl none
  · next some => exact iff_of_false (Option.some_ne_none _) some

theorem receive_eq_none {needsUnit : Bool} :
    c.receive app needsUnit = none ↔ c.host.signalled = false ∧
      if needsUnit then c.host.session.demand = 0 else c.inbound = [] ∧ c.ended = false := by
  rw [Host.signalled_eq_false]
  unfold receive
  split
  · next stopping => simp [stopping]
  · next going =>
    rw [Bool.not_eq_true] at going
    split
    · next reason => simp [reason]
    · next unaborted =>
      rw [unaborted, going]
      cases needsUnit with
      | true => simp [take?_eq_none]
      | false =>
        split
        · contradiction
        · split
          · next arrived => simp [arrived]
          · next empty => cases c.ended <;> simp [empty]

/-- The driver has no move exactly where it lacks something. -/
theorem turn_eq_none_iff : c.turn app = none ↔ c.Lacks := by
  unfold turn Lacks
  cases c.phase with
  | idle | finished _ => exact iff_of_true rfl trivial
  | starting => exact iff_of_false (Option.some_ne_none _) fun no => no
  | opening | serving f => exact await_eq_none
  | reading needsUnit =>
    refine receive_eq_none.trans ?_
    cases needsUnit <;> simp

/-! ### Steps -/

/-- A step of the task at the head of the queue. -/
inductive Pace (app : Application σ) (c : Connection σ) : Connection σ → Prop
  | serves {n : Nat} {tasks : List Task} (queue : c.host.ready = .waiter n :: tasks) :
    Pace app c { c with host := serve { c.host with ready := tasks } n }
  | yields {tasks : List Task} (queue : c.host.ready = .driver :: tasks) (tired : c.patience = 0) :
    Pace app c { c with
      patience := fullPatience, host := { c.host with ready := tasks }.wake .driver }
  | turns {d : Connection σ} (awake : .driver ∈ c.host.ready) (way : Way app c d) : Pace app c d
  | rests {tasks : List Task} (queue : c.host.ready = .driver :: tasks) (lacks : c.Lacks) :
    Pace app c { c with patience := fullPatience, host := c.rest { c.host with ready := tasks } }

theorem pace_of_step (stepped : c.step app = some d) : Pace app c d := by
  unfold step at stepped
  split at stepped
  · cases stepped
  · next queue =>
    cases stepped
    exact .serves queue
  · next tasks queue =>
    split at stepped
    · next tired =>
      cases stepped
      exact .yields queue tired
    · split at stepped
      · next turned =>
        cases stepped
        exact .turns (by rw [queue]; exact List.mem_cons_self) (way_of_turn turned)
      · next stuck =>
        cases stepped
        exact .rests queue (turn_eq_none_iff.mp stuck)

/-! ### What stays -/

section Firm

open Host (Firm)

theorem firm_release (c : Connection σ) (ending : Ending) :
    Firm [] c.host (c.release ending).host := by
  let freed := { c.host with
    house := { c.host.house with running := c.host.house.running - 1 }
    parked := c.host.parked.erase .driver }
  have begun : Firm [] c.host (freed.count .disconnected) :=
    Host.firm_of_eq rfl rfl (fun awake => awake) rfl
  exact begun.trans (Host.firm_note (freed.count .disconnected) (.logged _))

theorem firm_leave (c : Connection σ) (ending : Ending) :
    Firm [] c.host (c.leave ending).host := by
  unfold leave
  dsimp only
  split
  · exact firm_release { c with supervisor := c.supervisor.deregister c.id } ending
  · exact firm_release c ending

theorem firm_crash (c : Connection σ) (p : Panic) : Firm [] c.host (c.crash p).host := by
  have released := firm_release c (.crashed p)
  unfold crash
  dsimp only
  split
  · let counted := (c.release (.crashed p)).host.count (.failed "panic")
    have counting : Firm [] (c.release (.crashed p)).host counted :=
      Host.firm_of_eq rfl rfl (fun awake => awake) rfl
    exact (released.trans counting).trans
      (Host.firm_of_works (Host.works_foldl_log counted (crashedLines c.id p)))
  · exact released

/-- After a callback, and after the crash of one. -/
theorem firm_unlessCrashed {r : Host σ × Option Panic} (begun : Firm ts c.host r.1)
    {next : Connection σ → Connection σ}
    (onward : Firm [] r.1 (next { c with host := r.1 }).host) :
    Firm ts c.host (c.unlessCrashed r next).host := by
  unfold unlessCrashed
  dsimp only
  split
  · exact begun.free (firm_crash { c with host := r.1 } _)
  · exact begun.free onward

theorem sends_sendClose (h : Host σ) (code : CloseCode) (reason : String) :
    Host.Sends (fun _ => True) h (sendClose h code reason) := by
  unfold sendClose
  split
  · exact .refl
  · exact Host.sends_send (P := fun _ => True) h trivial (t := .root .silent) trivial false

theorem firm_finish (app : Application σ) (c : Connection σ) (code : CloseCode) :
    Firm [] c.host (c.finish app code).host := by
  have logged := Host.firm_note c.host (.logged (closedLine c.id code))
  unfold finish
  exact firm_unlessCrashed (logged.trans (Host.firm_of_works (Host.works_closed app _ code)))
    (firm_leave { c with host := _ } _)

theorem firm_fail (app : Application σ) (c : Connection σ) (e : Failure) :
    Firm [] c.host (c.fail app e).host := by
  have logged := Host.firm_note c.host (.logged (failedLine c.id e))
  have counted : Firm [] (c.host.log (failedLine c.id e))
      ((c.host.log (failedLine c.id e)).count (.failed e.label)) :=
    Host.firm_of_eq rfl rfl (fun awake => awake) rfl
  unfold fail
  refine firm_unlessCrashed
    ((logged.trans counted).trans (Host.firm_of_works (Host.works_failed app _ e))) ?_
  refine firm_unlessCrashed (c := { c with host := _ }) ?_ (firm_leave { c with host := _ } _)
  exact (Host.firm_of_sends (sends_sendClose _ _ _)).trans
    (Host.firm_of_works (Host.works_closed app _ e.closeCode))

theorem firm_finishShutdown (app : Application σ) (c : Connection σ) :
    Firm [] c.host (c.finishShutdown app).host :=
  (Host.firm_of_sends (sends_sendClose _ _ _)).trans
    (firm_finish app { c with host := _ } .goingAway)

theorem firm_enter (app : Application σ) (c : Connection σ) :
    Firm [] c.host (c.enter app).host := by
  let counted : Host σ := { c.host with
    house := { c.host.house with running := c.host.house.running + 1 } }.count .connected
  let line := openedLine c.id (c.host.house.running + 1)
  have begun : Firm [] c.host counted := Host.firm_of_eq rfl rfl (fun awake => awake) rfl
  have waiting : Firm [] (counted.log line) (handOver (counted.log line)).1 :=
    Host.firm_of_eq rfl rfl (fun awake => awake) rfl
  have opened := Host.firm_of_works
    (Host.works_opened app (handOver (counted.log line)).1 (handOver (counted.log line)).2)
  show Firm [] c.host (c.unlessCrashed _ ({ · with phase := .opening })).host
  exact firm_unlessCrashed
    (((begun.trans (Host.firm_note counted (.logged line))).trans waiting).trans opened)
    (Host.firm_refl _)

theorem firm_conclude (app : Application σ) (c : Connection σ) (f : Frame) :
    Firm [] c.host (c.conclude app f).host := by
  have answered := Host.firm_of_sends (sends_sendPong c.host f)
  unfold conclude
  split
  · next code _ =>
    exact (answered.trans (Host.firm_of_sends (sends_sendClose _ code ""))).trans
      (firm_finish app { c with host := _ } code)
  · exact answered

/-- The frame that is handed over is the one toll. -/
theorem firm_dispatch (app : Application σ) (c : Connection σ) (f : Frame) :
    Firm [some f] c.host (c.dispatch app f).host := by
  let waiting := (handOver (c.host.touch.count .inbound)).1
  have begun : Firm [] c.host waiting := Host.firm_of_eq rfl rfl (fun awake => awake) rfl
  have handed := Host.firm_note waiting (.handed (.frame f))
  unfold dispatch
  exact firm_unlessCrashed
    ((begun.trans handed).free (Host.firm_of_works (Host.works_frame app _ f _)))
    (Host.firm_refl _)

theorem firm_take {h : Host σ} {session : Session} (taken : h.session.take? = some session) :
    Firm [] h { h with session } := by
  rw [(Session.eq_of_take? taken).2]
  exact Host.firm_of_eq rfl rfl (fun awake => awake) rfl

theorem isReading_of_reading {needsUnit : Bool} (reading : d.phase = .reading needsUnit) :
    d.isReading = true := by
  rw [isReading, reading]

/-- The connection is over. -/
def Done (c : Connection σ) : Prop := ∃ ending, c.phase = .finished ending

/-- The tolls of a move: a unit, a frame, or nothing.  Where nothing is paid, a driver that reads
    goes on as it did or is over, and one that begins to read asks whether it needs a unit. -/
inductive Pays (app : Application σ) (c d : Connection σ) : List (Option Frame) → Prop
  | nothing
      (reads : d.isReading = true → d.phase = c.phase ∨
        c.phase.awaits = true ∧ d.phase = .reading (d.host.demanding app))
      (ends : c.isReading = true ∨ c.Done → d.phase = c.phase ∨ d.Done) : Pays app c d []
  | unit (free : c.host.signalled = false) (reading : c.phase = .reading true)
      (paid : d.phase = .reading false) : Pays app c d [none]
  | frame {f : Frame} (free : c.host.signalled = false) (reading : c.phase = .reading false)
      (handed : d.isReading = false) : Pays app c d [some f]

theorem pays_of_same (same : d.phase = c.phase) : Pays app c d [] :=
  .nothing (fun _ => .inl same) fun _ => .inl same

theorem pays_of_done (done : d.Done) : Pays app c d [] := by
  refine .nothing (fun reads => ?_) fun _ => .inr done
  obtain ⟨_, finished⟩ := done
  rw [isReading_of_finished finished] at reads
  cases reads

/-- A driver that has not got so far as to read. -/
theorem pays_of_early (early : c.phase = .idle ∨ c.phase = .starting)
    (busy : d.isReading = false) : Pays app c d [] := by
  refine .nothing (fun reads => ?_) fun later => ?_
  · rw [busy] at reads
    cases reads
  · rcases later with reads | ⟨_, finished⟩
    · unfold isReading at reads
      rcases early with phase | phase <;> rw [phase] at reads <;> cases reads
    · rcases early with phase | phase <;> cases phase.symm.trans finished

/-- A driver that goes on to read. -/
theorem pays_of_awaits (awaits : c.phase.awaits = true)
    (reads : d.phase = .reading (d.host.demanding app)) : Pays app c d [] := by
  refine .nothing (fun _ => .inr ⟨awaits, reads⟩) fun later => ?_
  rcases later with reading | ⟨_, finished⟩
  · unfold isReading at reading
    cases phase : c.phase with
    | opening | serving _ =>
      rw [phase] at reading
      cases reading
    | idle | starting | reading _ | finished _ =>
      rw [phase] at awaits
      cases awaits
  · rw [finished] at awaits
    cases awaits

theorem isReading_unlessCrashed {r : Host σ × Option Panic} {phase : Phase}
    (busy : ∀ needsUnit, phase ≠ .reading needsUnit) :
    (c.unlessCrashed r ({ · with phase })).isReading = false := by
  unfold unlessCrashed
  dsimp only
  split
  · unfold crash
    dsimp only
    split <;> rfl
  · cases phase with
    | reading needsUnit => exact (busy needsUnit rfl).elim
    | idle | starting | opening | serving _ | finished _ => rfl

/-- What every move comes to. -/
theorem Way.firm (way : Way app c d) : ∃ ts, Pays app c d ts ∧ Firm ts c.host d.host := by
  cases way with
  | enters starting =>
    exact ⟨[], pays_of_early (.inr starting) (isReading_unlessCrashed nofun), firm_enter app c⟩
  | opens opening verdict =>
    exact ⟨[], pays_of_awaits (by rw [opening]; rfl) rfl, Host.firm_refl _⟩
  | @concludes f serving verdict =>
    refine ⟨[], ?_, firm_conclude app { c with patience := c.patience - 1 } f⟩
    unfold conclude
    split
    · exact pays_of_done (ends_finish app _ _).finished
    · exact pays_of_awaits (by rw [serving]; rfl) rfl
  | fails awaits outcome =>
    exact ⟨[], pays_of_done (ends_fail app c _).finished, firm_fail app c _⟩
  | stops reading stopping =>
    exact ⟨[], pays_of_done (ends_finishShutdown app c).finished, firm_finishShutdown app c⟩
  | aborts reading going reason =>
    exact ⟨[], pays_of_done (ends_fail app c _).finished, firm_fail app c _⟩
  | runsOut reading free empty ended =>
    exact ⟨[], pays_of_done (ends_fail app c _).finished, firm_fail app c _⟩
  | @takes session reading free taken =>
    exact ⟨[none], .unit free reading rfl,
      (firm_take taken).trans (Host.firm_note { c.host with session } .took)⟩
  | @hands f rest reading free arrived =>
    exact ⟨[some f], .frame free reading (isReading_unlessCrashed nofun),
      firm_dispatch app { c with inbound := rest } f⟩

end Firm

/-- Only a connection that runs has a driver that moves. -/
theorem Way.running (way : Way app c d) : c.running = true := by
  unfold Connection.running
  cases way with
  | enters phase | opens phase _ | concludes phase _ | stops phase _ | aborts phase _ _
  | takes phase _ _ | hands phase _ _ | runsOut phase _ _ _ => rw [phase]
  | fails awaits _ =>
    cases phase : c.phase with
    | starting | opening | reading _ | serving _ => rfl
    | idle | finished _ =>
      rw [phase] at awaits
      cases awaits

end Connection

end WebSocketEngine
