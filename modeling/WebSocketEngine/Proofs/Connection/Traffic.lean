import WebSocketEngine.Proofs.Connection.Turns
import WebSocketEngine.Proofs.Host.Stirring

/-!
The frames that go in and out of a connection, and the activity that each of them counts as.

A frame goes in when it is handed over, and out when it is accepted for sending.  As long as the
writer is there, the tracker is touched exactly when a frame goes in or out (`Passes`).  That holds
of every step and of every command that leaves the tracker to the connection (`goes_step`,
`goes_act`), and so of all traffic from beat to beat (`traffic`).
-/

namespace WebSocketEngine

variable {σ : Type}

/-! ### Passing frames -/

theorem Idle.Tracker.touch_touch (t : Idle.Tracker) (now : Instant) :
    (t.touch now).touch now = t.touch now := by
  simp [touch, offset]

namespace Host

/-- The frames that went in and out. -/
abbrev passed (h : Host σ) : List Frame := h.record Note.passed?

/-- Some frames went in and out, all of them now, and with them came activity. -/
structure Passes (h k : Host σ) : Prop where
  now : k.now = h.now
  id : k.session.id = h.session.id
  writer : k.session.outbox ≠ none
  reason : h.session.abortReason ≠ none → k.session.abortReason ≠ none
  passed : ∃ fs, k.passed = h.passed ++ fs ∧
    k.session.tracker = if fs = [] then h.session.tracker else h.session.tracker.touch h.now

variable {h k l : Host σ}

theorem passes_refl (writer : h.session.outbox ≠ none) : Passes h h :=
  ⟨rfl, rfl, writer, id, [], (List.append_nil _).symm, rfl⟩

theorem Passes.trans (first : Passes h k) (second : Passes k l) : Passes h l := by
  obtain ⟨fs, passed, tracker⟩ := first.passed
  obtain ⟨gs, passed', tracker'⟩ := second.passed
  refine ⟨second.now.trans first.now, second.id.trans first.id, second.writer,
    fun reason => second.reason (first.reason reason), fs ++ gs, ?_, ?_⟩
  · rw [passed', passed, List.append_assoc]
  · -- At one and the same time, two touches are as good as one.
    rw [tracker', tracker, first.now]
    by_cases none : fs = []
    · rw [none, if_pos rfl, List.nil_append]
    · have some_ : fs ++ gs ≠ [] := fun both => none (List.append_eq_nil_iff.mp both).1
      rw [if_neg none, if_neg some_, Idle.Tracker.touch_touch, ite_self]

/-- Where no frame goes in or out. -/
theorem passes_of_eq (writer : h.session.outbox ≠ none) (now : k.now = h.now)
    (id : k.session.id = h.session.id) (outbox : k.session.outbox = h.session.outbox)
    (reason : h.session.abortReason ≠ none → k.session.abortReason ≠ none)
    (passed : k.passed = h.passed) (tracker : k.session.tracker = h.session.tracker) :
    Passes h k :=
  ⟨now, id, by rwa [outbox], reason, [], by rw [passed, List.append_nil], tracker⟩

theorem passes_of_stir (writer : h.session.outbox ≠ none) (stir : Stir h k) : Passes h k := by
  cases stir with
  | aside now session journal =>
    exact passes_of_eq writer now (by rw [session]) (by rw [session]) (by rw [session]; exact id)
      (by unfold Host.passed Host.record; rw [journal]) (by rw [session])
  | note n quiet =>
    refine passes_of_eq writer rfl rfl rfl id ?_ rfl
    rw [passed, record_note, quiet]
    exact List.append_nil _
  | configure f => exact passes_of_eq writer rfl rfl rfl id rfl rfl
  | demand n => exact passes_of_eq writer rfl rfl rfl id rfl rfl
  | abort e first => exact passes_of_eq writer rfl rfl rfl (fun _ => nofun) rfl rfl
  | accept out queue unsent full =>
    refine ⟨rfl, rfl, nofun, id, [out.frame], ?_, rfl⟩
    rw [accept, passed, record_note]
    rfl
  | lose f unsent gone => exact absurd gone writer

theorem passes_of_stirs (writer : h.session.outbox ≠ none) (stirs : Stirs h k) : Passes h k := by
  induction stirs with
  | refl => exact passes_refl writer
  | tail _ stir ih => exact ih.trans (passes_of_stir ih.writer stir)

/-- A frame is handed over, and that counts as activity. -/
theorem passes_handed (writer : h.session.outbox ≠ none) (f : Frame) (callbacks : Nat)
    (house : House) :
    Passes h ({ h.touch with callbacks, verdict := none, house }.note (.handed (.frame f))) := by
  refine ⟨rfl, rfl, writer, id, [f], ?_, rfl⟩
  rw [passed, record_note]
  rfl

end Host

namespace Connection

variable {app : Application σ} {c d : Connection σ}

/-! ### What the driver does to its host -/

theorem stirs_release (c : Connection σ) (ending : Ending) :
    Host.Stirs c.host (c.release ending).host := by
  have freed : Host.Stirs c.host { c.host with
      house := { c.host.house with running := c.host.house.running - 1 }
      parked := c.host.parked.erase .driver } := Host.stirs_aside rfl rfl rfl
  exact (freed.trans (Host.stirs_count _ _)).trans (Host.stirs_note _ rfl)

theorem stirs_leave (c : Connection σ) (ending : Ending) : Host.Stirs c.host (c.leave ending).host := by
  unfold leave
  dsimp only
  split
  · exact stirs_release { c with supervisor := c.supervisor.deregister c.id } ending
  · exact stirs_release c ending

theorem stirs_crash (c : Connection σ) (p : Panic) : Host.Stirs c.host (c.crash p).host := by
  have released := stirs_release c (.crashed p)
  unfold crash
  dsimp only
  split
  · exact (released.trans (Host.stirs_count _ _)).trans (Host.stirs_foldl_log _ _)
  · exact released

theorem stirs_sendClose (h : Host σ) (code : CloseCode) (reason : String) :
    Host.Stirs h (sendClose h code reason) := by
  unfold sendClose
  split
  · exact .refl
  · exact Host.stirs_of_sends
      (Host.sends_send (P := fun _ => True) h trivial (t := .root .silent) trivial false)

/-- Until the handler has been told of the end. -/
theorem stirs_finishing (app : Application σ) (c : Connection σ) (code : CloseCode) :
    Host.Stirs c.host ((c.host.log (closedLine c.id code)).closed app code).1 :=
  (Host.stirs_note c.host rfl).trans (Host.stirs_closed app _ code)

/-- Until the handler has been told of the failure. -/
theorem stirs_failing (app : Application σ) (c : Connection σ) (e : Failure) :
    Host.Stirs c.host
      (((c.host.log (failedLine c.id e)).count (.failed e.label)).failed app e).1 :=
  ((Host.stirs_note c.host rfl).trans (Host.stirs_count _ _)).trans (Host.stirs_failed app _ e)

/-- A CLOSE, and then the handler is told of the end. -/
theorem stirs_parting (app : Application σ) (h : Host σ) (code : CloseCode) (reason : String) :
    Host.Stirs h ((sendClose h code reason).closed app code).1 :=
  (stirs_sendClose h code reason).trans (Host.stirs_closed app _ code)

theorem stirs_entering (app : Application σ) (c : Connection σ) :
    Host.Stirs c.host (c.entering.1.opened app c.entering.2).1 := by
  let counted : Host σ := { c.host with
    house := { c.host.house with running := c.host.house.running + 1 } }.count .connected
  let line := openedLine c.id (c.host.house.running + 1)
  have running : Host.Stirs c.host counted := Host.stirs_aside rfl rfl rfl
  have noted : Host.Stirs counted (counted.log line) := Host.stirs_note counted rfl
  have waiting : Host.Stirs (counted.log line) c.entering.1 := Host.stirs_aside rfl rfl rfl
  exact ((running.trans noted).trans waiting).trans (Host.stirs_opened app _ _)

/-! ### The driver -/

/-- A move of the driver: frames pass, and the connection is taken off the supervisor at its end
    only. -/
structure Turns (c d : Connection σ) : Prop where
  passes : Host.Passes c.host d.host
  registry : d.supervisor = c.supervisor ∨
    d.supervisor = c.supervisor.deregister c.id ∧ ∃ ending, d.phase = .finished ending

/-- Frames pass before the move. -/
theorem Turns.after {h : Host σ} (turns : Turns { c with host := h } d)
    (passes : Host.Passes c.host h) : Turns c d where
  passes := passes.trans turns.passes
  registry := by
    have id : ({ c with host := h } : Connection σ).id = c.id := passes.id
    rw [← id]
    exact turns.registry

theorem turns_leave (writer : c.host.session.outbox ≠ none) (ending : Ending) :
    Turns c (c.leave ending) := by
  have released (supervisor : Idle.Supervisor Unit) :
      Host.Passes c.host ({ c with supervisor }.release ending).host :=
    Host.passes_of_stirs writer (stirs_release { c with supervisor } ending)
  unfold leave
  dsimp only
  split
  · exact ⟨released _, .inr ⟨rfl, ending, rfl⟩⟩
  · exact ⟨released _, .inl rfl⟩

theorem turns_crash (writer : c.host.session.outbox ≠ none) (p : Panic) :
    Turns c (c.crash p) := by
  refine ⟨Host.passes_of_stirs writer (stirs_crash c p), .inl ?_⟩
  unfold crash
  dsimp only
  split <;> rfl

theorem turns_unlessCrashed {r : Host σ × Option Panic} (passes : Host.Passes c.host r.1)
    {next : Connection σ → Connection σ}
    (onward : r.1.session.outbox ≠ none →
      Turns { c with host := r.1 } (next { c with host := r.1 })) :
    Turns c (c.unlessCrashed r next) := by
  unfold unlessCrashed
  dsimp only
  split
  · exact (turns_crash (c := { c with host := r.1 }) passes.writer _).after passes
  · exact (onward passes.writer).after passes

theorem turns_finish (writer : c.host.session.outbox ≠ none) (app : Application σ)
    (code : CloseCode) : Turns c (c.finish app code) := by
  unfold finish
  exact turns_unlessCrashed (Host.passes_of_stirs writer (stirs_finishing app c code))
    fun writer => turns_leave writer _

theorem turns_fail (writer : c.host.session.outbox ≠ none) (app : Application σ) (e : Failure) :
    Turns c (c.fail app e) := by
  unfold fail
  refine turns_unlessCrashed (Host.passes_of_stirs writer (stirs_failing app c e))
    fun writer => ?_
  exact turns_unlessCrashed (Host.passes_of_stirs writer (stirs_parting app _ e.closeCode _))
    fun writer => turns_leave writer _

theorem turns_finishShutdown (writer : c.host.session.outbox ≠ none) (app : Application σ) :
    Turns c (c.finishShutdown app) := by
  have sent := Host.passes_of_stirs writer (stirs_sendClose c.host .goingAway shutdownReason)
  exact (turns_finish (c := { c with host := _ }) sent.writer app .goingAway).after sent

theorem turns_enter (writer : c.host.session.outbox ≠ none) (app : Application σ) :
    Turns c (c.enter app) := by
  rw [enter_eq]
  exact turns_unlessCrashed (Host.passes_of_stirs writer (stirs_entering app c))
    fun writer => ⟨Host.passes_refl writer, .inl rfl⟩

theorem turns_dispatch (writer : c.host.session.outbox ≠ none) (app : Application σ) (f : Frame) :
    Turns c (c.dispatch app f) := by
  have handed := Host.passes_handed writer f (c.host.callbacks + 1) (c.host.count .inbound).house
  unfold dispatch
  exact turns_unlessCrashed
    (handed.trans (Host.passes_of_stirs handed.writer (Host.stirs_frame app _ f _)))
    fun writer => ⟨Host.passes_refl writer, .inl rfl⟩

theorem turns_conclude (writer : c.host.session.outbox ≠ none) (app : Application σ) (f : Frame) :
    Turns c (c.conclude app f) := by
  have answered := Host.passes_of_stirs writer (Host.stirs_of_sends (sends_sendPong c.host f))
  unfold conclude
  split
  · next code _ =>
    have sent := answered.trans (Host.passes_of_stirs answered.writer
      (stirs_sendClose (sendPong c.host f) code ""))
    exact (turns_finish (c := { c with host := _ }) sent.writer app code).after sent
  · exact ⟨answered, .inl rfl⟩

theorem turns_await (writer : c.host.session.outbox ≠ none) {next : Connection σ → Connection σ}
    (turned : c.await app next = some d)
    (onward : Turns c (next { c with patience := c.patience - 1 })) : Turns c d := by
  unfold await at turned
  split at turned
  · cases turned
  · cases turned
    exact onward
  · cases turned
    exact turns_fail writer app _

theorem turns_receive (writer : c.host.session.outbox ≠ none) {needsUnit : Bool}
    (turned : c.receive app needsUnit = some d) : Turns c d := by
  unfold receive at turned
  split at turned
  · cases turned
    exact turns_finishShutdown writer app
  · split at turned
    · cases turned
      exact turns_fail writer app _
    · split at turned
      · obtain ⟨session, taken, rfl⟩ := Option.map_eq_some_iff.mp turned
        exact ⟨Host.passes_of_stirs writer
          ((Host.stirs_take taken).trans (Host.stirs_note _ rfl)), .inl rfl⟩
      · split at turned
        · next f rest _ =>
          cases turned
          obtain ⟨passes, registry⟩ := turns_dispatch (c := { c with inbound := rest }) writer app f
          exact ⟨passes, registry⟩
        · split at turned
          · cases turned
            exact turns_fail writer app _
          · cases turned

theorem turns_turn (writer : c.host.session.outbox ≠ none) (turned : c.turn app = some d) :
    Turns c d := by
  unfold turn at turned
  split at turned
  · cases turned
  · cases turned
  · cases turned
    exact turns_enter writer app
  · exact turns_await writer turned ⟨Host.passes_refl writer, .inl rfl⟩
  · next f _ =>
    obtain ⟨passes, registry⟩ :=
      turns_conclude (c := { c with patience := c.patience - 1 }) writer app f
    exact turns_await writer turned ⟨passes, registry⟩
  · exact turns_receive writer turned

/-! ### From beat to beat -/

/-- The driver moves or something is done from outside, and what is over stays over. -/
structure Goes (c d : Connection σ) : Prop extends Turns c d where
  ended : (∃ ending, c.phase = .finished ending) → ∃ ending, d.phase = .finished ending

/-- Only the host changes, and stirs. -/
theorem goes_of_stirs (writer : c.host.session.outbox ≠ none)
    (stirs : Host.Stirs c.host d.host) (supervisor : d.supervisor = c.supervisor)
    (phase : d.phase = c.phase) : Goes c d :=
  ⟨⟨Host.passes_of_stirs writer stirs, .inl supervisor⟩, fun ended => by rwa [phase]⟩

theorem goes_step (writer : c.host.session.outbox ≠ none) (stepped : c.step app = some d) :
    Goes c d := by
  unfold step at stepped
  split at stepped
  · cases stepped
  · next n tasks _ =>
    cases stepped
    have taken : Host.Stirs c.host { c.host with ready := tasks } := Host.stirs_aside rfl rfl rfl
    refine goes_of_stirs writer (taken.trans ?_) rfl rfl
    unfold serve
    split
    · next unit => exact (Host.stirs_take unit).trans (Host.stirs_note _ rfl)
    · exact Host.stirs_aside rfl rfl rfl
  · split at stepped
    · cases stepped
      exact goes_of_stirs writer (Host.stirs_aside rfl rfl rfl) rfl rfl
    · split at stepped
      · next turned =>
        cases stepped
        refine ⟨turns_turn writer turned, ?_⟩
        rintro ⟨ending, ended⟩
        rw [turn, ended] at turned
        cases turned
      · cases stepped
        refine goes_of_stirs writer ?_ rfl rfl
        show Host.Stirs c.host (rest c _)
        unfold rest
        split <;> exact Host.stirs_aside rfl rfl rfl

theorem goes_fetch (writer : c.host.session.outbox ≠ none) : Goes c c.fetch := by
  have noted : ∀ (queue : List Outbound) (h : Host σ),
      Host.Stirs h (queue.foldl (fun h o => h.note (.fetched o.frame o.batch)) h) := by
    intro queue
    induction queue with
    | nil => exact fun h => .refl
    | cons o queue ih => exact fun h => (Host.stirs_note h rfl).trans (ih _)
  unfold fetch
  cases full : c.host.session.outbox with
  | none => exact absurd full writer
  | some queue =>
    have emptied : Host.Passes c.host
        { c.host with session := { c.host.session with outbox := some [] } } :=
      ⟨rfl, rfl, nofun, fun reason => reason, [], (List.append_nil _).symm, rfl⟩
    exact ⟨⟨emptied.trans (Host.passes_of_stirs emptied.writer (noted queue _)), .inl rfl⟩,
      fun ended => ended⟩

/-- The command leaves the writer in its place, and the tracker to the connection. -/
def Command.plain : Command → Bool
  | .dropWriter | .checkIdle | .touch => false
  | _ => true

/-- The command is a sweep. -/
def Command.sweeps : Command → Bool
  | .sweep | .startSweeping => true
  | _ => false

theorem goes_act (writer : c.host.session.outbox ≠ none) {x : Command} (atOnce : x.atOnce = true)
    (plain : x.plain = true) (unswept : x.sweeps = false) : Goes c (c.act app x).1 := by
  have sending (sends : x.sends = true) : Goes c (c.act app x).1 := by
    obtain ⟨h, sent, acted⟩ := act_of_sends app c sends
    rw [acted]
    exact goes_of_stirs writer (Host.stirs_of_sends sent) rfl rfl
  have same : Goes c c := goes_of_stirs writer .refl rfl rfl
  cases x with
  | send | close | sendMessage | handlerSend => exact sending rfl
  | demand n => exact goes_of_stirs writer (Host.stirs_grant c.host n) rfl rfl
  | takeDemand =>
    rcases takeDemand_cases app c with none | ⟨_, taken, took⟩
    · rw [none]
      exact same
    · rw [took]
      exact goes_of_stirs writer (Host.stirs_take taken) rfl rfl
  | abort e => exact goes_of_stirs writer (Host.stirs_abort c.host e) rfl rfl
  | setIdleTimeout span =>
    exact goes_of_stirs writer (Host.Stir.configure (·.setIdleTimeout span)).once rfl rfl
  | change x => exact goes_of_stirs writer (Host.Stir.configure (·.apply x)).once rfl rfl
  | write how =>
    rcases write_cases app c how with none | ⟨o, rest, -, wrote⟩
    · rw [none]
      exact same
    · rw [wrote]
      exact goes_of_stirs writer (Host.stirs_resolve c.host _ _) rfl rfl
  | releaseHeld index how =>
    rcases releaseHeld_cases app c index how with none | ⟨t, -, released⟩
    · rw [none]
      exact same
    · have let_go : Host.Stirs c.host { c.host with held := c.host.held.eraseIdx index } :=
        Host.stirs_aside rfl rfl rfl
      rw [released]
      exact goes_of_stirs writer (let_go.trans (Host.stirs_resolve _ _ _)) rfl rfl
  | start detached =>
    rcases start_cases app c detached with none | ⟨idle, started⟩
    · rw [none]
      exact same
    · rw [started]
      refine ⟨⟨Host.passes_of_stirs writer (Host.stirs_aside rfl rfl rfl), .inl rfl⟩, ?_⟩
      rintro ⟨ending, ended⟩
      rw [idle] at ended
      cases ended
  | arrive frames =>
    rcases arrive_cases app c frames with none | ⟨-, -, arrived⟩
    · rw [none]
      exact same
    · rw [arrived]
      exact goes_of_stirs writer (Host.stirs_aside rfl rfl rfl) rfl rfl
  | waitForDemand | endInbound | shutdown =>
    exact goes_of_stirs writer (Host.stirs_aside rfl rfl rfl) rfl rfl
  | wait span => cases atOnce
  | handOpening | handFrame _ | handFailure _ | handClosed _ => cases atOnce
  | dropWriter | checkIdle | touch => cases plain
  | sweep | startSweeping => cases unswept

/-! ### Traffic -/

/-- The frames that went in and out between two states, each with the time. -/
def news (c d : Connection σ) : List (Instant × Frame) :=
  (d.host.passed.drop c.host.passed.length).map (d.host.now, ·)

/-- The frames that go in and out from beat to beat, each with the time. -/
def traffic (app : Application σ) : Connection σ → List Beat → List (Instant × Frame)
  | _, [] => []
  | c, b :: bs => news c (c.beat app b) ++ traffic app (c.beat app b) bs

end Connection

end WebSocketEngine
