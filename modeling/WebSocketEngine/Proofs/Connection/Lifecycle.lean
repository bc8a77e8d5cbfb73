import WebSocketEngine.Proofs.Connection.Stage
import WebSocketEngine.Proofs.Frame.Close

/-!
The life of a connection.

Each step of the driver leads from one stage to the next (`atStage_turn`): it opens the handler,
goes from frame to frame, and leaves by a CLOSE, a failure or a shutdown.  So whatever the schedule,
a connection that has ended has ended in order (`ends_in_order`).
-/

namespace WebSocketEngine.Connection

variable {σ : Type} {app : Application σ} {memory : σ} {Own : Frame → Prop}

/-! ### The driver on its way out -/

theorem op_close (code : CloseCode) (reason : String) : (Frame.close code reason).op = .close := by
  unfold Frame.close
  split <;> rfl

/-- A CLOSE of the driver is only sent if none was sent before; after it one was. -/
theorem leads_sendClose {Wide : Frame → Prop} {h : Host σ} (s : h.account.Sound app memory Wide)
    {code : CloseCode} (reason : String) (wide : Wide (.close code reason)) :
    h.account.Leads app memory Wide [] (sendClose h code reason).account ∧
      (sendClose h code reason).account.closeSent = true := by
  have silent : (Completion.Token.root Sink.silent).sink.Outside := trivial
  unfold sendClose
  split
  · next sent => exact ⟨s.stay, sent⟩
  · next unsent =>
    have closing : (h.close code reason (.root .silent)).account.closeSent = true := by
      have unsent := Bool.eq_false_iff.mpr unsent
      unfold Host.close
      cases writer : h.session.outbox with
      | some queue =>
        rw [Host.send_of_open h unsent writer, Host.account_accept]
        exact decide_eq_true (op_close code reason)
      | none =>
        rw [Host.send_of_gone h unsent writer, Host.account_resolve]
        exact decide_eq_true (op_close code reason)
    have sends : Host.Sends (· = .close code reason) h (h.close code reason (.root .silent)) :=
      Host.sends_send (P := (· = .close code reason)) h rfl silent false
    refine ⟨Host.leads_of_sends s sends fun f same _ => .inl ?_, closing⟩
    rw [same]
    exact wide

theorem sends_sendPong (h : Host σ) (f : Frame) :
    Host.Sends (· = .pong f.payload) h (sendPong h f) := by
  have silent : (Completion.Token.root Sink.silent).sink.Outside := trivial
  unfold sendPong
  split
  · exact Host.sends_send (P := (· = .pong f.payload)) h rfl silent false
  · exact .refl

theorem leads_sendPong {Wide : Frame → Prop} {h : Host σ} (s : h.account.Sound app memory Wide)
    (f : Frame) : h.account.Leads app memory Wide [] (sendPong h f).account := by
  refine Host.leads_of_sends s (sends_sendPong h f) fun g same closing => ?_
  rw [same] at closing
  cases closing

theorem unlessCrashed_of_none {c : Connection σ} {r : Host σ × Option Panic}
    (well : r.2 = none) (next : Connection σ → Connection σ) :
    c.unlessCrashed r next = next { c with host := r.1 } := by
  unfold unlessCrashed
  rw [well]

/-- The host that the driver opens the handler with, and the token. -/
def entering (c : Connection σ) : Host σ × Ticket :=
  let house := { c.host.house with running := c.host.house.running + 1 }
  handOver (({ c.host with house }.count .connected).log (openedLine c.id house.running))

/-- The host that the driver hands a frame over with, and the token. -/
def facing (c : Connection σ) : Host σ × Ticket := handOver (c.host.touch.count .inbound)

theorem enter_eq (app : Application σ) (c : Connection σ) :
    c.enter app = c.unlessCrashed (c.entering.1.opened app c.entering.2)
      ({ · with phase := .opening }) := rfl

theorem dispatch_eq (app : Application σ) (c : Connection σ) (f : Frame) :
    c.dispatch app f = c.unlessCrashed (c.facing.1.frame app f c.facing.2)
      ({ · with phase := .serving f }) := rfl

theorem account_entering (c : Connection σ) : c.entering.1.account = c.host.account :=
  Host.account_log _ (openedLine c.id (c.host.house.running + 1))

theorem account_facing (c : Connection σ) : c.facing.1.account = c.host.account := rfl

theorem account_leave (c : Connection σ) (ending : Ending) :
    (c.leave ending).host.account = c.host.account := by
  unfold leave release
  dsimp only
  split <;> exact Host.account_log _ _

theorem account_crash (c : Connection σ) (p : Panic) :
    (c.crash p).host.account = c.host.account := by
  have released : (c.release (.crashed p)).host.account = c.host.account := Host.account_log _ _
  unfold crash
  dsimp only
  split
  · exact (Host.account_foldl_log _ _).trans released
  · exact released

theorem account_serve (h : Host σ) (n : Nat) : (serve h n).account = h.account := by
  unfold serve
  split
  · next taken => exact (Host.account_note _ rfl rfl rfl).trans (Host.account_take h taken)
  · rfl

theorem account_rest (c : Connection σ) (h : Host σ) : (c.rest h).account = h.account := by
  unfold rest
  split <;> rfl

theorem phase_leave (c : Connection σ) (ending : Ending) :
    (c.leave ending).phase = .finished ending := by
  unfold leave
  dsimp only
  split <;> rfl

section Calm

variable (calm : app.Calm)

include calm

/-- The way out in good order, once a CLOSE was sent. -/
theorem atStage_finish {c : Connection σ} (frames : List Frame) {code : CloseCode}
    (sound : c.host.account.Sound app memory fun f => Own f ∨ f.closeCode = some code)
    (sent : c.host.account.closeSent = true)
    (events : c.host.account.events = .opened :: frames.map .frame)
    (answers : (Ending.closed code).Answers c.host.account.stopping frames code) :
    AtStage app memory Own (c.finish app code) := by
  have logged := sound.leads_of_eq (Host.account_log c.host (closedLine c.id code))
  have closed := logged.trans (Host.leads_closed logged.sound code)
  unfold finish
  rw [unlessCrashed_of_none (Host.closed_crash calm _ code)]
  unfold AtStage
  rw [phase_leave, account_leave]
  exact ⟨frames, code, closed.sound, closed.sent sent,
    by rw [closed.events, events]; simp [Ending.failures], answers.mono closed.stopping⟩

/-- The way out of a failure. -/
theorem atStage_fail {c : Connection σ} {frames : List Frame}
    (r : Running app memory Own frames c.host.account) (e : Failure) :
    AtStage app memory Own (c.fail app e) := by
  have sound : c.host.account.Sound app memory fun f => Own f ∨ f.closeCode = some e.closeCode :=
    r.sound.mono fun _ own => .inl own
  have logged := sound.leads_of_eq (b := ((c.host.log (failedLine c.id e)).count
    (.failed e.label)).account) (Host.account_log c.host (failedLine c.id e))
  have failed := logged.trans (Host.leads_failed logged.sound e)
  have proper : e.closeCode.Proper := by cases e <;> rfl
  obtain ⟨closing, sent⟩ := leads_sendClose failed.sound
    (CloseReason.ofFailure e) (.inr (Frame.closeCode_close proper _))
  have closed := (failed.trans closing).trans (Host.leads_closed closing.sound e.closeCode)
  unfold fail
  rw [unlessCrashed_of_none (Host.failed_crash calm _ e)]
  dsimp only
  rw [unlessCrashed_of_none (Host.closed_crash calm _ e.closeCode)]
  unfold AtStage
  rw [phase_leave, account_leave]
  refine ⟨frames, e.closeCode, closed.sound, ?_, ?_, rfl⟩
  · exact (Host.leads_closed closing.sound e.closeCode).sent sent
  · rw [closed.events, r.events]
    simp [Ending.failures]

theorem atStage_finishShutdown {c : Connection σ} {frames : List Frame}
    (r : Running app memory Own frames c.host.account) (stopping : c.host.shutdown = true) :
    AtStage app memory Own (c.finishShutdown app) := by
  have proper : CloseCode.goingAway.Proper := rfl
  have sound : c.host.account.Sound app memory fun f => Own f ∨ f.closeCode = some .goingAway :=
    r.sound.mono fun _ own => .inl own
  obtain ⟨closing, sent⟩ := leads_sendClose sound shutdownReason
    (.inr (Frame.closeCode_close proper _))
  refine atStage_finish calm frames closing.sound sent ?_ ?_
  · rw [closing.events, r.events, List.append_nil]
  · exact ⟨rfl, .inr ⟨rfl, closing.stopping stopping⟩⟩

/-! ### The driver from frame to frame -/

theorem atStage_enter {c : Connection σ} (sound : c.host.account.Sound app memory Own)
    (events : c.host.account.events = []) : AtStage app memory Own (c.enter app) := by
  have ready : c.entering.1.account.Sound app memory Own := by
    rw [account_entering]
    exact sound
  have opened := Host.leads_opened ready c.entering.2
  rw [enter_eq, unlessCrashed_of_none (Host.opened_crash calm _ _)]
  refine ⟨[], opened.sound, opened.events.trans ?_⟩
  rw [account_entering, events]
  rfl

theorem atStage_dispatch {c : Connection σ} {frames : List Frame}
    (r : Running app memory Own frames c.host.account) (f : Frame) :
    AtStage app memory Own (c.dispatch app f) := by
  have ready : c.facing.1.account.Sound app memory Own := by
    rw [account_facing]
    exact r.sound
  have served := Host.leads_frame ready f c.facing.2
  rw [dispatch_eq, unlessCrashed_of_none (Host.frame_crash calm _ f _)]
  refine ⟨frames, served.sound, served.events.trans ?_⟩
  rw [account_facing, r.events]
  simp

theorem atStage_conclude {c : Connection σ} {frames : List Frame} {f : Frame}
    (r : Running app memory Own (frames ++ [f]) c.host.account) :
    AtStage app memory Own (c.conclude app f) := by
  have answered := leads_sendPong r.sound f
  unfold conclude
  split
  · next code read =>
    have proper := Frame.proper_of_closeCode read
    have sound : (sendPong c.host f).account.Sound app memory
        fun f => Own f ∨ f.closeCode = some code := answered.sound.mono fun _ own => .inl own
    obtain ⟨closing, sent⟩ := leads_sendClose sound ""
      (.inr (Frame.closeCode_close proper _))
    refine atStage_finish calm (frames ++ [f]) closing.sound sent ?_ ?_
    · rw [closing.events, answered.events, r.events, List.append_nil, List.append_nil]
    · exact ⟨rfl, .inl ⟨f, List.getLast?_concat, read⟩⟩
  · refine ⟨frames ++ [f], answered.sound, answered.events.trans ?_⟩
    rw [r.events, List.append_nil]

theorem atStage_await {c d : Connection σ} {next : Connection σ → Connection σ}
    {frames : List Frame} (r : Running app memory Own frames c.host.account)
    (turned : c.await app next = some d)
    (onward : AtStage app memory Own (next { c with patience := c.patience - 1 })) :
    AtStage app memory Own d := by
  unfold await at turned
  split at turned
  · cases turned
  · cases turned; exact onward
  · cases turned; exact atStage_fail calm r _

theorem atStage_receive {c d : Connection σ} {needsUnit : Bool} {frames : List Frame}
    (r : Running app memory Own frames c.host.account)
    (turned : c.receive app needsUnit = some d) : AtStage app memory Own d := by
  unfold receive at turned
  split at turned
  · next stopping =>
    cases turned
    exact atStage_finishShutdown calm r stopping
  · split at turned
    · cases turned; exact atStage_fail calm r _
    · split at turned
      · obtain ⟨session, taken, rfl⟩ := Option.map_eq_some_iff.mp turned
        have same := (Host.account_note { c.host with session } (n := .took) rfl rfl rfl).trans
          (Host.account_take c.host taken)
        exact ⟨frames, (same ▸ r : Running app memory Own frames _)⟩
      · split at turned
        · next f rest _ =>
          cases turned
          exact atStage_dispatch (c := { c with inbound := rest }) calm r f
        · split at turned
          · cases turned; exact atStage_fail calm r _
          · cases turned

theorem atStage_turn {c d : Connection σ} (at_ : AtStage app memory Own c)
    (turned : c.turn app = some d) : AtStage app memory Own d := by
  unfold AtStage at at_
  unfold turn at turned
  split at turned
  · cases turned
  · cases turned
  · next starting =>
    rw [starting] at at_
    cases turned
    exact atStage_enter calm at_.1 at_.2
  · next opening =>
    rw [opening] at at_
    obtain ⟨frames, r⟩ := at_
    exact atStage_await calm r turned ⟨frames, r⟩
  · next f serving =>
    rw [serving] at at_
    obtain ⟨frames, r⟩ := at_
    exact atStage_await calm r turned (atStage_conclude calm r)
  · next needsUnit reading =>
    rw [reading] at at_
    obtain ⟨frames, r⟩ := at_
    exact atStage_receive calm r turned

theorem atStage_step {c d : Connection σ} (at_ : AtStage app memory Own c)
    (stepped : c.step app = some d) : AtStage app memory Own d := by
  unfold step at stepped
  split at stepped
  · cases stepped
  · next n tasks _ =>
    cases stepped
    exact Stage.quiet at_ (quiet_of_eq (account_serve { c.host with ready := tasks } n))
  · split at stepped
    · cases stepped; exact at_
    · split at stepped
      · next turned => cases stepped; exact atStage_turn calm at_ turned
      · cases stepped
        exact Stage.quiet at_ (quiet_of_eq (account_rest c _))

end Calm

/-! ### Every schedule -/

theorem atStage_establish (supervised : Bool) (handler : Handler) (id : ConnectionId)
    (config : Config) (interval : Duration) (house : House) :
    AtStage app memory Own
      (establish supervised memory handler id config interval house) := by
  have first : (create memory handler id config interval house).host.account.Sound app memory Own :=
    ⟨rfl, fun _ => rfl, fun sent => (Bool.false_ne_true sent).elim,
      fun f mem => (List.not_mem_nil mem).elim⟩
  unfold establish
  cases supervised <;> exact ⟨first, rfl⟩

theorem atStage_play (calm : app.Calm) (supervised : Bool) (memory : σ) (handler : Handler)
    (id : ConnectionId) (config : Config) (interval : Duration) (house : House) {ms : List Move}
    (outside : ∀ x ∈ commands ms, x.atHandler = false) :
    AtStage app memory (· ∈ (commands ms).flatMap Command.frames)
      (play app (establish supervised memory handler id config interval house) ms) := by
  refine play_induction (atStage_establish ..) ?_ ?_ ?_
  · intro d x mem at_
    exact atStage_act (fun _ _ => atStage_step calm) at_ (outside x mem)
      fun f offered => List.mem_flatMap.mpr ⟨x, mem, offered⟩
  · exact fun d e => atStage_step calm
  · intro d at_
    have same : d.fetch.phase = d.phase := by unfold fetch; split <;> rfl
    unfold AtStage
    rw [same, account_fetch]
    exact at_

/-- At every stage the application's memory is that of its calls. -/
theorem AtStage.recalled {c : Connection σ} (at_ : AtStage app memory Own c) :
    c.host.memory = app.recollect memory c.host.calls := by
  unfold AtStage at at_
  cases phase : c.phase with
  | idle | starting =>
    rw [phase] at at_
    exact at_.1.recalled
  | opening | reading _ =>
    rw [phase] at at_
    obtain ⟨_, r⟩ := at_
    exact r.sound.recalled
  | serving f =>
    rw [phase] at at_
    obtain ⟨_, r⟩ := at_
    exact r.sound.recalled
  | finished ending =>
    rw [phase] at at_
    obtain ⟨_, _, closed⟩ := at_
    exact closed.sound.recalled

/-- Once a connection has ended, its handler was opened first, has then seen frames and at last,
    after the failure if there was one, the close code.  If the writer is still there, exactly one
    CLOSE was accepted, and it has that code unless the application offered it. -/
theorem ends_in_order (app : Application σ) (calm : app.Calm) (supervised : Bool) (memory : σ)
    (handler : Handler) (id : ConnectionId) (config : Config) (interval : Duration) (house : House)
    (ms : List Move) (outside : ∀ x ∈ commands ms, x.atHandler = false) (ending : Ending)
    (ended : (play app (establish supervised memory handler id config interval house) ms).phase =
      .finished ending) :
    let h := (play app (establish supervised memory handler id config interval house) ms).host
    ∃ frames code,
      h.events = .opened :: frames.map .frame ++ ending.failures ++ [.closed code] ∧
      ending.Answers h.shutdown frames code ∧
      (h.session.outbox ≠ none → ∃ f, h.accepted.filter (·.op = .close) = [f] ∧
        (f.closeCode = some code ∨ f ∈ (commands ms).flatMap Command.frames ∨
          f ∈ app.offers memory h.calls)) := by
  have at_ := atStage_play calm supervised memory handler id config interval house outside
  unfold AtStage at at_
  rw [ended] at at_
  obtain ⟨frames, code, sound, sent, events, answers⟩ := at_
  refine ⟨frames, code, events, answers, fun writing => ?_⟩
  obtain ⟨f, closes⟩ := sound.sent sent (Option.isSome_iff_ne_none.mpr writing)
  refine ⟨f, closes, ?_⟩
  rcases sound.own f (by rw [closes]; exact List.mem_singleton_self f) with (own | code) | offered
  · exact .inr (.inl own)
  · exact .inl code
  · exact .inr (.inr offered)

/-- A peer that closes at once, and an application that does nothing. -/
theorem ends_in_order_of_close :
    let app : Application Unit := ⟨.none, fun s _ => (s, ⟨[], .succeed⟩), fun _ => false⟩
    let ms : List Move :=
      [.act (.start false), .act (.arrive [.close .normal ""]), .step, .step, .step, .step]
    (play app (establish false () .direct ⟨1⟩ .standard .zero .empty) ms).phase =
        .finished (.closed .normal) ∧
      let h := (play app (establish false () .direct ⟨1⟩ .standard .zero .empty) ms).host
      ∃ frames code,
        h.events =
          .opened :: frames.map .frame ++ (Ending.closed .normal).failures ++ [.closed code] ∧
        (Ending.closed .normal).Answers h.shutdown frames code ∧
        (h.session.outbox ≠ none → ∃ f, h.accepted.filter (·.op = .close) = [f] ∧
          (f.closeCode = some code ∨ f ∈ (commands ms).flatMap Command.frames ∨
            f ∈ app.offers () h.calls)) := by
  intro app ms
  have ended : (play app (establish false () .direct ⟨1⟩ .standard .zero .empty) ms).phase =
      .finished (.closed .normal) := by decide
  have outside : ∀ x ∈ commands ms, x.atHandler = false := by decide
  exact ⟨ended, ends_in_order app (fun _ _ _ => Reply.noConfusion) false () .direct ⟨1⟩ .standard
    .zero .empty ms outside _ ended⟩

end WebSocketEngine.Connection
