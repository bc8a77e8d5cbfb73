import WebSocketEngine.Proofs.Connection.Beats
import WebSocketEngine.Proofs.Connection.Traffic
import WebSocketEngine.Proofs.Connection.Ways

/-!
What everything that happens to a connection does to its host: stroke by stroke (`strokes_beat`).

    a move of the driver    stirs, and before them a frame that is handed over
    a sweep, the clock      the tracker, the time, and stirs
    the writer              takes over the outbox, or goes away
    a command               one of these, or stirs

So what is true of a new host and is preserved by every stroke is true of the host after every run
(`host_beats`).
-/

namespace WebSocketEngine

variable {σ : Type}

open Host (Stirs Strokes Stroke)

namespace Connection

variable {app : Application σ} {c d : Connection σ}

/-! ### Moves of the driver -/

theorem strokes_unlessCrashed {r : Host σ × Option Panic} (begun : Strokes c.host r.1)
    {next : Connection σ → Connection σ}
    (onward : Strokes r.1 (next { c with host := r.1 }).host) :
    Strokes c.host (c.unlessCrashed r next).host := by
  unfold unlessCrashed
  dsimp only
  split
  · exact begun.trans (Host.strokes_of_stirs (stirs_crash { c with host := r.1 } _))
  · exact begun.trans onward

theorem strokes_finish (app : Application σ) (c : Connection σ) (code : CloseCode) :
    Strokes c.host (c.finish app code).host := by
  unfold finish
  exact strokes_unlessCrashed (Host.strokes_of_stirs (stirs_finishing app c code))
    (Host.strokes_of_stirs (stirs_leave { c with host := _ } _))

theorem strokes_fail (app : Application σ) (c : Connection σ) (e : Failure) :
    Strokes c.host (c.fail app e).host := by
  unfold fail
  refine strokes_unlessCrashed (Host.strokes_of_stirs (stirs_failing app c e)) ?_
  exact strokes_unlessCrashed (c := { c with host := _ })
    (Host.strokes_of_stirs (stirs_parting app _ e.closeCode _))
    (Host.strokes_of_stirs (stirs_leave { c with host := _ } _))

theorem strokes_finishShutdown (app : Application σ) (c : Connection σ) :
    Strokes c.host (c.finishShutdown app).host :=
  (Host.strokes_of_stirs (stirs_sendClose c.host .goingAway shutdownReason)).trans
    (strokes_finish app { c with host := _ } .goingAway)

theorem strokes_enter (app : Application σ) (c : Connection σ) :
    Strokes c.host (c.enter app).host := by
  rw [enter_eq]
  exact strokes_unlessCrashed (Host.strokes_of_stirs (stirs_entering app c)) .refl

theorem strokes_touch (h : Host σ) : Strokes h h.touch :=
  (Stroke.track (h.session.tracker.touch h.now)).once

theorem strokes_dispatch (app : Application σ) (c : Connection σ) (f : Frame) :
    Strokes c.host (c.dispatch app f).host := by
  let counted := c.host.touch.count .inbound
  have active : Strokes c.host counted :=
    (strokes_touch c.host).trans (Host.strokes_of_stirs (Host.stirs_count _ _))
  have waiting : Stirs counted (handOver counted).1 := Host.stirs_aside rfl rfl rfl
  unfold dispatch
  exact strokes_unlessCrashed
    ((active.trans (Host.strokes_of_stirs waiting)).trans (Host.strokes_frame app _ f _)) .refl

theorem strokes_conclude (app : Application σ) (c : Connection σ) (f : Frame) :
    Strokes c.host (c.conclude app f).host := by
  have answered := Host.strokes_of_stirs (Host.stirs_of_sends (sends_sendPong c.host f))
  unfold conclude
  split
  · next code _ =>
    exact (answered.trans (Host.strokes_of_stirs (stirs_sendClose _ code ""))).trans
      (strokes_finish app { c with host := _ } code)
  · exact answered

theorem strokes_take {h : Host σ} {session : Session} (taken : h.session.take? = some session)
    {n : Note} (quiet : n.passed? = none) : Strokes h ({ h with session }.note n) :=
  Host.strokes_of_stirs ((Host.stirs_take taken).trans (Host.stirs_note _ quiet))

theorem strokes_of_way (way : Way app c d) : Strokes c.host d.host := by
  cases way with
  | enters starting => exact strokes_enter app c
  | opens opening verdict => exact .refl
  | concludes serving verdict => exact strokes_conclude app { c with patience := c.patience - 1 } _
  | fails awaits outcome => exact strokes_fail app c _
  | stops reading stopping => exact strokes_finishShutdown app c
  | aborts reading going reason => exact strokes_fail app c _
  | takes reading free taken => exact strokes_take taken rfl
  | @hands f rest reading free arrived => exact strokes_dispatch app { c with inbound := rest } f
  | runsOut reading free empty ended => exact strokes_fail app c _

/-! ### Steps, sweeps and time -/

theorem strokes_aside {h k : Host σ} (now : k.now = h.now) (session : k.session = h.session)
    (journal : k.journal = h.journal) : Strokes h k :=
  Host.strokes_of_stirs (Host.stirs_aside now session journal)

theorem strokes_serve (h : Host σ) (n : Nat) : Strokes h (serve h n) := by
  unfold serve
  split
  · next taken => exact strokes_take taken rfl
  · exact strokes_aside rfl rfl rfl

theorem strokes_rest (c : Connection σ) (h : Host σ) : Strokes h (c.rest h) := by
  unfold rest
  split
  · exact strokes_aside rfl rfl rfl
  · exact .refl

theorem strokes_step (stepped : c.step app = some d) : Strokes c.host d.host := by
  have waiting (tasks : List Task) : Strokes c.host { c.host with ready := tasks } :=
    strokes_aside rfl rfl rfl
  cases pace_of_step stepped with
  | serves queue => exact (waiting _).trans (strokes_serve _ _)
  | yields queue tired => exact strokes_aside rfl rfl rfl
  | turns awake way => exact strokes_of_way way
  | rests queue lacks => exact (waiting _).trans (strokes_rest c _)

theorem strokes_sweep (c : Connection σ) : Strokes c.host c.sweep.1.host := by
  refine sweep_preserves (I := fun d => Strokes c.host d.host) (fun d before => ?_)
    (fun _ _ before => before) (fun d e before => ?_) .refl
  · exact before.tail (.track _)
  · have logged : Stirs d.host
        ((d.host.count .idleTimeout).log (Idle.expiryLine e.id e.idleFor)) :=
      (Host.stirs_count _ _).trans (Host.stirs_note _ rfl)
    exact before.trans (Host.strokes_of_stirs (logged.trans (Host.stirs_abort _ _)))

theorem strokes_fetch (c : Connection σ) : Strokes c.host c.fetch.host := by
  unfold fetch
  split
  · exact .refl
  · next queue writer =>
    exact List.foldlRecOn queue _ (motive := Strokes c.host) (Stroke.empty queue writer).once
      fun k before o _ => before.trans (Host.strokes_of_stirs (Host.stirs_note k rfl))

theorem strokes_dropWriter (c : Connection σ) : Strokes c.host c.dropWriter.1.host :=
  List.foldlRecOn _ _ (motive := Strokes c.host) Stroke.hangUp.once
    fun k before o _ => before.trans (Host.strokes_of_stirs (Host.stirs_resolve k o.ticket _))

theorem strokes_wait (app : Application σ) (c : Connection σ) (span : Duration) :
    Strokes c.host (c.wait app span).host :=
  wait_preserves (I := fun d => Strokes c.host d.host)
    (fun _ _ before stepped => before.trans (strokes_step stepped))
    (fun d before => before.trans (strokes_sweep d))
    (fun _ now _ before => before.tail (.clock now)) .refl span

/-! ### Whole runs -/

theorem strokes_act (app : Application σ) (c : Connection σ) (x : Command) :
    Strokes c.host (c.act app x).1.host := by
  have sending (sends : x.sends = true) : Strokes c.host (c.act app x).1.host := by
    obtain ⟨h, sent, acted⟩ := act_of_sends app c sends
    rw [acted]
    exact Host.strokes_of_stirs (Host.stirs_of_sends sent)
  cases x with
  | send | close | sendMessage | handlerSend => exact sending rfl
  | demand n => exact Host.strokes_of_stirs (Host.stirs_grant c.host n)
  | takeDemand =>
    rcases takeDemand_cases app c with none | ⟨_, taken, took⟩
    · rw [none]
    · rw [took]
      exact Host.strokes_of_stirs (Host.stirs_take taken)
  | waitForDemand | endInbound | shutdown => exact strokes_aside rfl rfl rfl
  | abort e => exact Host.strokes_of_stirs (Host.stirs_abort c.host e)
  | setIdleTimeout span =>
    exact Host.strokes_of_stirs (Host.Stir.configure (·.setIdleTimeout span)).once
  | change y => exact Host.strokes_of_stirs (Host.Stir.configure (·.apply y)).once
  | checkIdle => exact (Stroke.track _).once
  | touch => exact strokes_touch c.host
  | wait span => exact strokes_wait app c span
  | write how =>
    rcases write_cases app c how with none | ⟨o, rest, -, wrote⟩
    · rw [none]
    · rw [wrote]
      exact Host.strokes_of_stirs (Host.stirs_resolve c.host _ _)
  | dropWriter => exact strokes_dropWriter c
  | releaseHeld index how =>
    rcases releaseHeld_cases app c index how with none | ⟨t, -, released⟩
    · rw [none]
    · have taken : Strokes c.host { c.host with held := c.host.held.eraseIdx index } :=
        strokes_aside rfl rfl rfl
      rw [released]
      exact taken.trans (Host.strokes_of_stirs (Host.stirs_resolve _ _ _))
  | handOpening => exact Host.strokes_of_stirs (Host.stirs_opened app c.host _)
  | handFrame f => exact Host.strokes_frame app c.host f _
  | handFailure e => exact Host.strokes_of_stirs (Host.stirs_failed app c.host e)
  | handClosed code => exact Host.strokes_of_stirs (Host.stirs_closed app c.host code)
  | start detached =>
    rcases start_cases app c detached with none | ⟨-, started⟩
    · rw [none]
    · rw [started]
      exact strokes_aside rfl rfl rfl
  | arrive frames =>
    rcases arrive_cases app c frames with none | ⟨-, -, arrived⟩
    · rw [none]
    · rw [arrived]
      exact strokes_aside rfl rfl rfl
  | sweep | startSweeping => exact strokes_sweep c

theorem strokes_beat (app : Application σ) (c : Connection σ) (b : Beat) :
    Strokes c.host (c.beat app b).host := by
  cases b with
  | act x => exact strokes_act app c x
  | fetch => exact strokes_fetch c
  | clock now sweepers => exact (Stroke.clock now).once
  | step =>
    rw [beat]
    cases stepped : c.step app with
    | none => exact .refl
    | some d => exact strokes_step stepped

theorem strokes_beats (app : Application σ) (c : Connection σ) (bs : List Beat) :
    Strokes c.host (beats app c bs).host :=
  List.foldlRecOn bs _ (motive := fun d : Connection σ => Strokes c.host d.host) .refl
    fun d before b _ => before.trans (strokes_beat app d b)

/-- What every stroke preserves holds after every run if it holds at first. -/
theorem host_beats {I : Host σ → Prop} (stroke : ∀ h k, Stroke h k → I h → I k)
    (first : I c.host) (bs : List Beat) : I (beats app c bs).host := by
  have strokes := strokes_beats app c bs
  generalize (beats app c bs).host = k at strokes ⊢
  induction strokes with
  | refl => exact first
  | tail _ last ih => exact stroke _ _ last ih

end Connection

end WebSocketEngine
