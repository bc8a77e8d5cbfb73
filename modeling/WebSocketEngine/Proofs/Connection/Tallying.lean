import WebSocketEngine.Proofs.Connection.Beats
import WebSocketEngine.Proofs.Connection.Fair
import WebSocketEngine.Proofs.Connection.Waiting
import WebSocketEngine.Proofs.Connection.Ways
import WebSocketEngine.Proofs.Host.Heeding

/-!
What moves a connection between its application's calls.

    the driver's moves      nothing but for a frame, which may bring its unit back
    a task                  takes a unit, and the record says so
    a command               what it says
    sweeps, time, writer    nothing

So the configuration is left with what the application has written meanwhile, unless the command
itself writes, and the stock of units with what the application, the command and the assembler have
added (`tallies_step`, `tallies_act`).
-/

namespace WebSocketEngine

variable {σ : Type}

open Config (Change)
open Host (Heeds Tallies)

namespace Connection

variable {app : Application σ} {c d : Connection σ}

/-! ### Moves of the driver -/

theorem heeds_release (c : Connection σ) (ending : Ending) :
    Heeds app 0 c.host (c.release ending).host := by
  have freed : Heeds app 0 c.host ({ c.host with
      house := { c.host.house with running := c.host.house.running - 1 }
      parked := c.host.parked.erase .driver }.count .disconnected) :=
    Host.heeds_of_eq rfl rfl rfl rfl rfl
  exact freed.quietly (Host.heeds_note _ rfl rfl)

theorem heeds_leave (c : Connection σ) (ending : Ending) :
    Heeds app 0 c.host (c.leave ending).host := by
  unfold leave
  dsimp only
  split
  · exact heeds_release { c with supervisor := _ } ending
  · exact heeds_release c ending

theorem heeds_crash (c : Connection σ) (p : Panic) : Heeds app 0 c.host (c.crash p).host := by
  have released : Heeds app 0 c.host (c.release (.crashed p)).host := heeds_release c (.crashed p)
  unfold crash
  dsimp only
  split
  · have counted : Heeds app 0 (c.release (.crashed p)).host
        ((c.release (.crashed p)).host.count (.failed "panic")) :=
      Host.heeds_of_eq rfl rfl rfl rfl rfl
    exact (released.quietly counted).quietly (Host.heeds_foldl_log _ (crashedLines c.id p))
  · exact released

theorem heeds_unlessCrashed {n : UInt64} {r : Host σ × Option Panic} (begun : Heeds app n c.host r.1)
    {next : Connection σ → Connection σ}
    (onward : Heeds app 0 r.1 (next { c with host := r.1 }).host) :
    Heeds app n c.host (c.unlessCrashed r next).host := by
  unfold unlessCrashed
  dsimp only
  split
  · exact begun.quietly (heeds_crash { c with host := r.1 } _)
  · exact begun.quietly onward

theorem heeds_finish (c : Connection σ) (code : CloseCode) :
    Heeds app 0 c.host (c.finish app code).host :=
  heeds_unlessCrashed ((Host.heeds_note c.host rfl rfl).quietly (Host.heeds_closed _ code))
    (heeds_leave { c with host := _ } (.closed code))

theorem heeds_sendClose (h : Host σ) (code : CloseCode) (reason : String) :
    Heeds app 0 h (sendClose h code reason) :=
  Host.heeds_of_sends (sends_sendClose h code reason)

theorem heeds_fail (c : Connection σ) (e : Failure) : Heeds app 0 c.host (c.fail app e).host := by
  let logged := c.host.log (failedLine c.id e)
  have counted : Heeds app 0 logged (logged.count (.failed e.label)) :=
    Host.heeds_of_eq rfl rfl rfl rfl rfl
  have failed : Heeds app 0 c.host ((logged.count (.failed e.label)).failed app e).1 :=
    ((Host.heeds_note c.host rfl rfl).quietly counted).quietly (Host.heeds_failed _ e)
  refine heeds_unlessCrashed failed ?_
  refine heeds_unlessCrashed (c := { c with host := _ }) ?_ (heeds_leave { c with host := _ } _)
  exact (heeds_sendClose _ _ _).quietly (Host.heeds_closed _ e.closeCode)

theorem heeds_finishShutdown (c : Connection σ) :
    Heeds app 0 c.host (c.finishShutdown app).host :=
  (heeds_sendClose c.host .goingAway shutdownReason).quietly (heeds_finish { c with host := _ } _)

theorem heeds_handOver (h : Host σ) : Heeds app 0 h (handOver h).1 :=
  Host.heeds_of_eq rfl rfl rfl rfl rfl

theorem heeds_enter (c : Connection σ) : Heeds app 0 c.host (c.enter app).host := by
  let counted := { c.host with
    house := { c.host.house with running := c.host.house.running + 1 } }.count .connected
  have entered : Heeds app 0 c.host counted := Host.heeds_of_eq rfl rfl rfl rfl rfl
  have waiting := (entered.quietly (Host.heeds_note counted
    (n := .logged (openedLine c.id (c.host.house.running + 1))) rfl rfl)).quietly (heeds_handOver _)
  exact heeds_unlessCrashed (waiting.quietly (Host.heeds_opened _ _)) (Host.heeds_refl _)

theorem heeds_conclude (c : Connection σ) (f : Frame) :
    Heeds app 0 c.host (c.conclude app f).host := by
  have answered : Heeds app 0 c.host (sendPong c.host f) :=
    Host.heeds_of_sends (sends_sendPong c.host f)
  unfold conclude
  split
  · next code _ =>
    exact (answered.quietly (heeds_sendClose _ code "")).quietly
      (heeds_finish { c with host := _ } code)
  · exact answered

/-! ### A frame that is handed over -/

theorem heeds_dispatch (c : Connection σ) (f : Frame) :
    Heeds app (c.facing.1.returned app f c.facing.2) c.host (c.dispatch app f).host := by
  have touched : Heeds app 0 c.host (c.host.touch.count .inbound) :=
    Host.heeds_of_uncalled rfl rfl rfl (UInt64.add_zero _).symm rfl rfl
  have waiting := touched.quietly (heeds_handOver _)
  exact heeds_unlessCrashed (waiting.before (Host.heeds_frame _ f _)) (Host.heeds_refl _)

/-- The units that an assembler gives back for the frame that the driver has handed over. -/
def comesBack (app : Application σ) (c d : Connection σ) : Nat :=
  match c.phase, d.phase with
  | .reading _, .serving f => (c.facing.1.returned app f c.facing.2).toNat
  | _, _ => 0

theorem comesBack_of_unread (unread : c.isReading = false) : comesBack app c d = 0 := by
  unfold comesBack
  split
  · next reading _ => cases (isReading_of_reading reading).symm.trans unread
  · rfl

theorem comesBack_of_unserved (unserved : ∀ f, d.phase ≠ .serving f) : comesBack app c d = 0 := by
  unfold comesBack
  split
  · next serving => exact (unserved _ serving).elim
  · rfl

/-- The driver of a connection whose application has crashed does nothing more. -/
theorem done_of_crash {r : Host σ × Option Panic} {p : Panic} (crashed : r.2 = some p)
    (next : Connection σ → Connection σ) : (c.unlessCrashed r next).Done := by
  unfold unlessCrashed
  rw [crashed]
  dsimp only
  unfold crash
  dsimp only
  split <;> exact ⟨_, rfl⟩

theorem comesBack_of_done (done : d.Done) : comesBack app c d = 0 := by
  obtain ⟨ending, finished⟩ := done
  exact comesBack_of_unserved fun f serving => by cases finished.symm.trans serving

theorem comesBack_dispatch {needsUnit : Bool} (reading : c.phase = .reading needsUnit) (f : Frame)
    (inbound : List Frame) :
    comesBack app c ({ c with inbound }.dispatch app f) =
      (c.facing.1.returned app f c.facing.2).toNat := by
  cases crashed : (c.facing.1.frame app f c.facing.2).2 with
  | none =>
    have dispatched : ({ c with inbound }.dispatch app f).phase = .serving f := by
      have unharmed : (c.facing.1.frame app f c.facing.2).2 = none := crashed
      unfold dispatch unlessCrashed
      unfold facing at unharmed
      simp only [unharmed]
    rw [comesBack, dispatched, reading]
  | some p =>
    rw [Host.returned_of_crash crashed]
    exact comesBack_of_done (done_of_crash (c := { c with inbound }) crashed _)

theorem tallies_of_way (way : Way app c d) :
    Tallies app (comesBack app c d) 0 c.host d.host := by
  have ended (done : d.Done) (heeds : Heeds app 0 c.host d.host) :
      Tallies app (comesBack app c d) 0 c.host d.host := by
    rw [comesBack_of_done done]
    exact heeds.tallies
  have early (unread : c.isReading = false) (heeds : Heeds app 0 c.host d.host) :
      Tallies app (comesBack app c d) 0 c.host d.host := by
    rw [comesBack_of_unread unread]
    exact heeds.tallies
  have busy {phase : Phase} (same : c.phase = phase) (busy : ∀ n, phase ≠ .reading n) :
      c.isReading = false := by
    unfold isReading
    rw [same]
    cases phase with
    | reading n => exact (busy n rfl).elim
    | idle | starting | opening | serving _ | finished _ => rfl
  cases way with
  | enters starting => exact early (busy starting nofun) (heeds_enter c)
  | opens opening verdict => exact early (busy opening nofun) (Host.heeds_refl _)
  | concludes serving verdict =>
    exact early (busy serving nofun) (heeds_conclude { c with patience := c.patience - 1 } _)
  | fails awaits outcome => exact ended (ends_fail app c _).finished (heeds_fail c _)
  | stops reading stopping =>
    exact ended (ends_finishShutdown app c).finished (heeds_finishShutdown c)
  | aborts reading going reason => exact ended (ends_fail app c _).finished (heeds_fail c _)
  | takes reading free taken =>
    rw [comesBack_of_unserved fun _ serving => by cases serving]
    exact Host.tallies_draw taken rfl rfl
  | @hands f rest reading free arrived =>
    rw [comesBack_dispatch reading]
    exact (heeds_dispatch { c with inbound := rest } f).tallies
  | runsOut reading free empty ended => exact ended (ends_fail app c _).finished (heeds_fail c _)

/-! ### Steps, sweeps and time -/

theorem tallies_serve (h : Host σ) (n : Nat) : Tallies app 0 0 h (serve h n) := by
  unfold serve
  split
  · next taken => exact Host.tallies_draw taken rfl rfl
  · have waits : Heeds app 0 h (h.park (.waiter n)) := Host.heeds_of_eq rfl rfl rfl rfl rfl
    exact waits.tallies

theorem heeds_rest (c : Connection σ) (h : Host σ) : Heeds app 0 h (c.rest h) := by
  unfold rest
  split
  · exact Host.heeds_of_eq rfl rfl rfl rfl rfl
  · exact Host.heeds_refl h

/-- A driver that stays where it is hands nothing over. -/
theorem comesBack_of_same (same : d.phase = c.phase) : comesBack app c d = 0 := by
  unfold comesBack
  rw [same]
  split
  · next reading serving => cases reading.symm.trans serving
  · rfl

theorem tallies_step (stepped : c.step app = some d) :
    Tallies app (comesBack app c d) 0 c.host d.host := by
  have waiting (tasks : List Task) : Heeds app 0 c.host { c.host with ready := tasks } :=
    Host.heeds_of_eq rfl rfl rfl rfl rfl
  have still {e : Connection σ} (same : e.phase = c.phase)
      (tallies : Tallies app 0 0 c.host e.host) : Tallies app (comesBack app c e) 0 c.host e.host := by
    rwa [comesBack_of_same same]
  cases pace_of_step stepped with
  | serves queue => exact still rfl ((waiting _).tallies.quietly (tallies_serve _ _))
  | @yields tasks queue tired =>
    have woken : Heeds app 0 c.host ({ c.host with ready := tasks }.wake .driver) :=
      Host.heeds_of_eq rfl rfl rfl rfl rfl
    exact still rfl woken.tallies
  | turns awake way => exact tallies_of_way way
  | rests queue lacks => exact still rfl ((waiting _).quietly (heeds_rest c _)).tallies

theorem heeds_checkIdle (h : Host σ) : Heeds app 0 h h.checkIdle.1 :=
  Host.heeds_of_uncalled rfl rfl rfl (UInt64.add_zero _).symm rfl rfl

theorem heeds_expire (c : Connection σ) (e : Idle.Expiry Unit) :
    Heeds app 0 c.host (c.expire e).host := by
  have counted : Heeds app 0 c.host (c.host.count .idleTimeout) :=
    Host.heeds_of_eq rfl rfl rfl rfl rfl
  exact (counted.quietly (Host.heeds_note _ rfl rfl)).quietly (Host.heeds_abort _ _)

theorem heeds_sweep (c : Connection σ) : Heeds app 0 c.host c.sweep.1.host :=
  sweep_preserves (I := fun d => Heeds app 0 c.host d.host)
    (fun d heeds => heeds.quietly (heeds_checkIdle d.host)) (fun _ _ heeds => heeds)
    (fun d e heeds => heeds.quietly (heeds_expire d e)) (Host.heeds_refl c.host)

theorem heeds_clock (h : Host σ) (now : Instant) : Heeds app 0 h { h with now } :=
  Host.heeds_of_eq rfl rfl rfl rfl rfl

theorem heeds_fetch (c : Connection σ) : Heeds app 0 c.host c.fetch.host := by
  have noted (queue : List Outbound) (h : Host σ) :
      Heeds app 0 h (queue.foldl (fun h o => h.note (.fetched o.frame o.batch)) h) :=
    List.foldlRecOn queue _ (motive := Heeds app 0 h) (Host.heeds_refl h)
      fun k heeds _ _ => heeds.quietly (Host.heeds_note k rfl rfl)
  unfold fetch
  split
  · exact Host.heeds_refl _
  · next queue _ =>
    have emptied : Heeds app 0 c.host
        { c.host with session := { c.host.session with outbox := some [] } } :=
      Host.heeds_of_uncalled rfl rfl rfl (UInt64.add_zero _).symm rfl rfl
    exact emptied.quietly (noted queue _)

theorem heeds_dropWriter (c : Connection σ) : Heeds app 0 c.host c.dropWriter.1.host := by
  have dropped (left : List Outbound) (h : Host σ) :
      Heeds app 0 h (left.foldl (fun h o => h.drop o.ticket) h) :=
    List.foldlRecOn left _ (motive := Heeds app 0 h) (Host.heeds_refl h)
      fun k heeds o _ => heeds.quietly (Host.heeds_resolve k o.ticket _)
  have gone : Heeds app 0 c.host
      { c.host with session := { c.host.session with outbox := none } } :=
    Host.heeds_of_uncalled rfl rfl rfl (UInt64.add_zero _).symm rfl rfl
  exact gone.quietly (dropped _ _)

/-! ### Commands -/

/-- The changes that a command makes itself. -/
def Command.changes : Command → List Change
  | .change x => [x]
  | .setIdleTimeout d => [{ Change.nothing with idle := some d }]
  | _ => []

/-- The units that an assembler gives back for the frame of a command. -/
def comesBackTo (app : Application σ) (c : Connection σ) : Command → Nat
  | .handFrame f => (c.host.returned app f (.root (.caller c.callers))).toNat
  | _ => 0

/-- The units that a command takes, by its answer. -/
def asksFor (app : Application σ) (c : Connection σ) : Command → Nat
  | .takeDemand => (c.act app .takeDemand).2.unit
  | _ => 0

/-- A command that makes no change leaves that to the application. -/
theorem tallies_act (app : Application σ) (c : Connection σ) {x : Command}
    (instant : x.instant = true) (unchanged : x.changes = []) :
    Tallies app (x.granted + comesBackTo app c x) (asksFor app c x) c.host (c.act app x).1.host := by
  have aside {k : Host σ} (heeds : Heeds app 0 c.host k) : Tallies app 0 0 c.host k := heeds.tallies
  have sending (sends : x.sends = true) : Tallies app 0 0 c.host (c.act app x).1.host := by
    obtain ⟨h, sent, acted⟩ := act_of_sends app c sends
    rw [acted]
    exact aside (Host.heeds_of_sends sent)
  have same : Tallies app 0 0 c.host c.host := aside (Host.heeds_refl c.host)
  have woken (t : Task) : Heeds app 0 c.host (c.host.wake t) :=
    Host.heeds_of_eq rfl rfl rfl rfl rfl
  cases x with
  | change | setIdleTimeout => cases unchanged
  | wait => cases instant
  | send | close | sendMessage | handlerSend => exact sending rfl
  | demand n =>
    have granted : Heeds app n c.host (c.host.grant n) :=
      Host.heeds_of_uncalled rfl rfl rfl rfl rfl rfl
    exact granted.tallies
  | takeDemand =>
    unfold asksFor act
    dsimp only
    split
    · next taken => exact Host.tallies_take taken
    · exact same
  | waitForDemand | endInbound => exact aside (woken _)
  | shutdown => exact aside (Host.heeds_of_eq rfl rfl rfl rfl rfl)
  | abort e => exact aside (Host.heeds_abort c.host e)
  | checkIdle => exact aside (heeds_checkIdle c.host)
  | touch => exact aside (Host.heeds_of_uncalled rfl rfl rfl (UInt64.add_zero _).symm rfl rfl)
  | write how =>
    rcases write_cases app c how with none | ⟨o, rest, -, wrote⟩
    · rwa [none]
    · rw [wrote]
      exact aside (Host.heeds_resolve c.host _ _)
  | dropWriter => exact aside (heeds_dropWriter c)
  | releaseHeld index how =>
    rcases releaseHeld_cases app c index how with none | ⟨t, -, released⟩
    · rwa [none]
    · have taken : Heeds app 0 c.host { c.host with held := c.host.held.eraseIdx index } :=
        Host.heeds_of_eq rfl rfl rfl rfl rfl
      rw [released]
      exact aside (taken.quietly (Host.heeds_resolve _ _ _))
  | handOpening => exact aside (Host.heeds_opened c.host _)
  | handFrame f =>
    have handed : Tallies app (comesBackTo app c (.handFrame f)) 0 c.host
        (c.act app (.handFrame f)).1.host := (Host.heeds_frame c.host f _).tallies
    rw [← Nat.zero_add (comesBackTo app c _)] at handed
    exact handed
  | handFailure e => exact aside (Host.heeds_failed c.host e)
  | handClosed code => exact aside (Host.heeds_closed c.host code)
  | start detached =>
    rcases start_cases app c detached with none | ⟨-, started⟩
    · rwa [none]
    · rw [started]
      exact aside (woken .driver)
  | arrive frames =>
    rcases arrive_cases app c frames with none | ⟨-, -, arrived⟩
    · rwa [none]
    · rw [arrived]
      exact aside (woken .driver)
  | sweep | startSweeping => exact aside (heeds_sweep c)

end Connection

end WebSocketEngine
