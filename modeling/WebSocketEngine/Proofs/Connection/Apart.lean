import WebSocketEngine.Proofs.Connection.Beats
import WebSocketEngine.Proofs.Connection.Ways
import WebSocketEngine.Proofs.Host.Kindred
import WebSocketEngine.Proofs.Idle.Sweeping

/-!
Two connections that differ in nothing but what the house counts and in the lines of the log.

Whatever is done to both, they go on to differ in nothing else (`kin_beat`).  So what a connection
does is its own affair: nothing that others count tells on it.
-/

namespace WebSocketEngine.Connection

open Completion (fullPatience)
open Host (Kindred)

variable {σ : Type} {app : Application σ} {c d : Connection σ}

/-- The connections differ at most in the house and in the lines of the log. -/
def Kin (c d : Connection σ) : Prop := ∃ host, d = { c with host } ∧ c.host.Kin host

theorem kin_refl (c : Connection σ) : Kin c c := ⟨c.host, rfl, Host.kin_refl c.host⟩

theorem Kin.host (kin : Kin c d) : c.host.Kin d.host := by
  obtain ⟨host, rfl, kin⟩ := kin
  exact kin

theorem Kin.onHost (kin : Kin c d) {h k : Host σ} (host : h.Kin k) :
    Kin { c with host := h } { d with host := k } := by
  obtain ⟨_, rfl, -⟩ := kin
  exact ⟨k, rfl, host⟩

/-- Whatever neither reads nor writes the host. -/
theorem Kin.set (kin : Kin c d) (f : Connection σ → Connection σ)
    (blind : ∀ c host, f { c with host } = { f c with host }) (still : (f c).host = c.host) :
    Kin (f c) (f d) := by
  obtain ⟨k, rfl, kin⟩ := kin
  exact ⟨k, blind c k, still ▸ kin⟩

/-! ### Sending -/

theorem kin_sendClose {h k : Host σ} (kin : h.Kin k) (code : CloseCode) (reason : String) :
    (sendClose h code reason).Kin (sendClose k code reason) := by
  have closed := Host.kin_send kin (.close code reason) (.root .silent) false
  obtain ⟨house, journal, rfl, same⟩ := kin
  unfold sendClose
  dsimp only
  split
  · exact ⟨house, journal, rfl, same⟩
  · exact closed

theorem kin_sendPong {h k : Host σ} (kin : h.Kin k) (f : Frame) :
    (sendPong h f).Kin (sendPong k f) := by
  have sent := Host.kin_send kin (.pong f.payload) (.root .silent) false
  obtain ⟨house, journal, rfl, same⟩ := kin
  unfold sendPong
  dsimp only
  split
  · exact sent
  · exact ⟨house, journal, rfl, same⟩

/-! ### Ways out -/

theorem kin_release (kin : Kin c d) (ending : Ending) :
    Kin (c.release ending) (d.release ending) := by
  obtain ⟨_, rfl, house, journal, rfl, same⟩ := kin
  exact ⟨_, rfl, _, _ :: journal, rfl, same⟩

theorem kin_leave (kin : Kin c d) (ending : Ending) : Kin (c.leave ending) (d.leave ending) := by
  obtain ⟨_, rfl, house, journal, rfl, same⟩ := kin
  unfold leave
  dsimp only
  split
  · let off := { c with supervisor := c.supervisor.deregister c.id }
    exact kin_release (c := off) ⟨_, rfl, house, journal, rfl, same⟩ ending
  · exact kin_release ⟨_, rfl, house, journal, rfl, same⟩ ending

theorem kin_crash (kin : Kin c d) (p : Panic) : Kin (c.crash p) (d.crash p) := by
  have alone (c : Connection σ) (alone : c.detached = true) : c.crash p =
      { c.release (.crashed p) with
        host := (crashedLines c.id p).foldl Host.log
          ((c.release (.crashed p)).host.count (.failed "panic")) } := if_pos alone
  have passed (c : Connection σ) (passed : ¬c.detached = true) :
      c.crash p = c.release (.crashed p) := if_neg passed
  have released := kin_release kin (.crashed p)
  obtain ⟨k, rfl, kin⟩ := kin
  have named : ({ c with host := k } : Connection σ).id = c.id := by
    obtain ⟨_, _, rfl, -⟩ := kin
    rfl
  have reported := Host.kin_foldl_log (Host.kin_count released.host (.failed "panic"))
    (crashedLines c.id p)
  by_cases detached : c.detached = true
  · rw [alone c detached, alone { c with host := k } detached, named]
    exact ⟨_, rfl, reported⟩
  · rwa [passed c detached, passed { c with host := k } detached]

/-- After a callback, and after the crash of one. -/
theorem kin_unlessCrashed (kin : Kin c d) {r s : Host σ × Option Panic} (kindred : Kindred r s)
    {next next' : Connection σ → Connection σ}
    (onward : Kin (next { c with host := r.1 }) (next' { d with host := s.1 })) :
    Kin (c.unlessCrashed r next) (d.unlessCrashed s next') := by
  obtain ⟨_, rfl, -⟩ := kin
  unfold unlessCrashed
  rw [kindred.crash]
  dsimp only
  split
  · exact kin_crash (c := { c with host := r.1 }) ⟨_, rfl, kindred.host⟩ _
  · exact onward

theorem kin_finish (kin : Kin c d) (app : Application σ) (code : CloseCode) :
    Kin (c.finish app code) (d.finish app code) := by
  have logged := Host.kin_log kin.host (closedLine c.id code) (closedLine d.id code)
  have closed := Host.kin_closed logged app code
  unfold finish
  refine kin_unlessCrashed kin closed ?_
  obtain ⟨_, rfl, -⟩ := kin
  exact kin_leave (c := { c with host := _ }) ⟨_, rfl, closed.host⟩ _

theorem kin_fail (kin : Kin c d) (app : Application σ) (e : Failure) :
    Kin (c.fail app e) (d.fail app e) := by
  have failed := Host.kin_failed (Host.kin_count (Host.kin_log kin.host (failedLine c.id e)
    (failedLine d.id e)) (.failed e.label)) app e
  have closed := Host.kin_closed
    (kin_sendClose failed.host e.closeCode (CloseReason.ofFailure e)) app e.closeCode
  unfold fail
  refine kin_unlessCrashed kin failed ?_
  obtain ⟨_, rfl, -⟩ := kin
  refine kin_unlessCrashed (c := { c with host := _ }) ⟨_, rfl, failed.host⟩ closed ?_
  exact kin_leave (c := { c with host := _ }) ⟨_, rfl, closed.host⟩ _

theorem kin_finishShutdown (kin : Kin c d) (app : Application σ) :
    Kin (c.finishShutdown app) (d.finishShutdown app) := by
  obtain ⟨_, rfl, kin⟩ := kin
  exact kin_finish (c := { c with host := _ }) ⟨_, rfl, kin_sendClose kin _ _⟩ app _

/-! ### From frame to frame -/

theorem kin_handOver {h k : Host σ} (kin : h.Kin k) :
    (handOver h).1.Kin (handOver k).1 ∧ (handOver k).2 = (handOver h).2 := by
  obtain ⟨house, journal, rfl, same⟩ := kin
  exact ⟨⟨house, journal, rfl, same⟩, rfl⟩

theorem kin_enter (kin : Kin c d) (app : Application σ) : Kin (c.enter app) (d.enter app) := by
  let entered (c : Connection σ) : Host σ := ({ c.host with
    house := { c.host.house with running := c.host.house.running + 1 } }.count .connected).log
      (openedLine c.id (c.host.house.running + 1))
  have counted : (entered c).Kin (entered d) :=
    Host.kin_log (Host.kin_count (Host.kin_house kin.host _ _) .connected) _ _
  obtain ⟨handed, ticket⟩ := kin_handOver counted
  have opened : Kindred ((handOver (entered c)).1.opened app (handOver (entered c)).2)
      ((handOver (entered d)).1.opened app (handOver (entered d)).2) :=
    ticket ▸ Host.kin_opened handed app (handOver (entered c)).2
  show Kin (c.unlessCrashed _ ({ · with phase := .opening }))
    (d.unlessCrashed _ ({ · with phase := .opening }))
  refine kin_unlessCrashed kin opened ?_
  obtain ⟨_, rfl, -⟩ := kin
  exact ⟨_, rfl, opened.host⟩

theorem kin_read (kin : Kin c d) (app : Application σ) : Kin (c.read app) (d.read app) := by
  obtain ⟨_, rfl, house, journal, rfl, same⟩ := kin
  exact ⟨_, rfl, house, journal, rfl, same⟩

theorem kin_dispatch (kin : Kin c d) (app : Application σ) (f : Frame) :
    Kin (c.dispatch app f) (d.dispatch app f) := by
  let touched (c : Connection σ) : Host σ := c.host.touch.count .inbound
  have counted : (touched c).Kin (touched d) :=
    Host.kin_count (kin.host.set (·.touch) (fun _ _ _ => rfl) rfl) .inbound
  obtain ⟨handed, ticket⟩ := kin_handOver counted
  have framed : Kindred ((handOver (touched c)).1.frame app f (handOver (touched c)).2)
      ((handOver (touched d)).1.frame app f (handOver (touched d)).2) :=
    ticket ▸ Host.kin_frame handed app f (handOver (touched c)).2
  show Kin (c.unlessCrashed _ ({ · with phase := .serving f }))
    (d.unlessCrashed _ ({ · with phase := .serving f }))
  refine kin_unlessCrashed kin framed ?_
  obtain ⟨_, rfl, -⟩ := kin
  exact ⟨_, rfl, framed.host⟩

theorem kin_conclude (kin : Kin c d) (app : Application σ) (f : Frame) :
    Kin (c.conclude app f) (d.conclude app f) := by
  obtain ⟨k, rfl, kin⟩ := kin
  have answered := kin_sendPong kin f
  unfold conclude
  split
  · next code _ =>
    exact kin_finish (c := { c with host := _ }) ⟨_, rfl, kin_sendClose answered code ""⟩ app code
  · exact kin_read (c := { c with host := _ }) ⟨_, rfl, answered⟩ app

/-! ### Steps -/

/-- Whatever move the driver of the one makes, that of the other makes. -/
theorem kin_way {c' : Connection σ} (kin : Kin c d) (way : Way app c c') :
    ∃ d', Way app d d' ∧ Kin c' d' := by
  have failed (e : Failure) := kin_fail kin app e
  have entered := kin_enter kin app
  have stopped := kin_finishShutdown kin app
  obtain ⟨_, rfl, house, journal, rfl, same⟩ := kin
  cases way with
  | enters starting => exact ⟨_, .enters starting, entered⟩
  | opens opening verdict =>
    exact ⟨_, .opens opening verdict, _, rfl, house, journal, rfl, same⟩
  | concludes serving verdict =>
    have ready : Kin { c with patience := c.patience - 1 }
        { c with patience := c.patience - 1, host := { c.host with house, journal } } :=
      ⟨_, rfl, house, journal, rfl, same⟩
    exact ⟨_, .concludes serving verdict, kin_conclude ready app _⟩
  | fails awaits outcome => exact ⟨_, .fails awaits outcome, failed _⟩
  | stops reading stopping => exact ⟨_, .stops reading stopping, stopped⟩
  | aborts reading going reason => exact ⟨_, .aborts reading going reason, failed _⟩
  | takes reading free taken =>
    exact ⟨_, .takes reading free taken, _, rfl, house, .took :: journal, rfl,
      congrArg (Note.took :: ·) same⟩
  | @hands f rest reading free arrived =>
    have ready : Kin { c with inbound := rest }
        { c with inbound := rest, host := { c.host with house, journal } } :=
      ⟨_, rfl, house, journal, rfl, same⟩
    exact ⟨_, .hands reading free arrived, kin_dispatch ready app f⟩
  | runsOut reading free empty ended => exact ⟨_, .runsOut reading free empty ended, failed _⟩

theorem kin_turn (kin : Kin c d) (app : Application σ) :
    Option.Rel Kin (c.turn app) (d.turn app) := by
  cases turned : c.turn app with
  | none =>
    have lacks := turn_eq_none_iff.mp turned
    have stuck : d.turn app = none := by
      obtain ⟨_, rfl, _, _, rfl, -⟩ := kin
      exact turn_eq_none_iff.mpr lacks
    rw [stuck]
    exact .none
  | some c' =>
    obtain ⟨d', way, after⟩ := kin_way kin (way_of_turn turned)
    rw [turn_of_way way]
    exact .some after

theorem kin_serve {h k : Host σ} (kin : h.Kin k) (n : Nat) : (serve h n).Kin (serve k n) := by
  obtain ⟨house, journal, rfl, same⟩ := kin
  unfold serve
  dsimp only
  cases h.session.take? with
  | none => exact ⟨house, journal, rfl, same⟩
  | some session => exact ⟨house, .served n :: journal, rfl, congrArg (Note.served n :: ·) same⟩

theorem kin_rest (kin : Kin c d) {h k : Host σ} (host : h.Kin k) : (c.rest h).Kin (d.rest k) := by
  obtain ⟨_, rfl, -⟩ := kin
  obtain ⟨house, journal, rfl, same⟩ := host
  unfold rest
  dsimp only
  split <;> exact ⟨house, journal, rfl, same⟩

/-- Both make a step, and differ in nothing else afterwards, or neither does. -/
theorem kin_step (kin : Kin c d) (app : Application σ) :
    Option.Rel Kin (c.step app) (d.step app) := by
  have turned := kin_turn kin app
  have ready (tasks : List Task) := kin.host.set (fun h => { h with ready := tasks })
    (fun _ _ _ => rfl) rfl
  have rested := kin.set ({ · with patience := fullPatience }) (fun _ _ => rfl) rfl
  have resting (tasks : List Task) := rested.onHost (kin_rest kin (ready tasks))
  have yielding (tasks : List Task) := rested.onHost (Host.kin_wake (ready tasks) .driver)
  have serving (tasks : List Task) (n : Nat) := kin.onHost (kin_serve (ready tasks) n)
  -- The turns are named before `d` is taken apart, for what they come to is known already.
  generalize turn : c.turn app = r, turn' : d.turn app = s at turned
  obtain ⟨_, rfl, _, _, rfl, -⟩ := kin
  unfold step
  rw [turn, turn']
  dsimp only
  cases c.host.ready with
  | nil => exact .none
  | cons task tasks =>
    cases task with
    | waiter n => exact .some (serving tasks n)
    | driver =>
      dsimp only
      split
      · exact .some (yielding tasks)
      · cases turned with
        | some after => exact .some after
        | none => exact .some (resting tasks)

/-! ### From outside -/

theorem kin_checkIdle {h k : Host σ} (kin : h.Kin k) :
    h.checkIdle.1.Kin k.checkIdle.1 ∧ k.checkIdle.2 = h.checkIdle.2 := by
  obtain ⟨house, journal, rfl, same⟩ := kin
  exact ⟨⟨house, journal, rfl, same⟩, rfl⟩

/-- The first pass of a sweep finds the same over both hosts. -/
theorem kin_collect {check : Host σ → Unit → Option (Host σ × Idle.State)}
    (lives : ∀ h e, check h e = some (h.checkIdle.1, h.checkIdle.2))
    (entries : List (ConnectionId × Unit)) {h k : Host σ} (kin : h.Kin k) :
    ∃ kept expired g g', g.Kin g' ∧
      Idle.Supervisor.collect check h entries = (kept, expired, g) ∧
      Idle.Supervisor.collect check k entries = (kept, expired, g') := by
  induction entries generalizing h k with
  | nil => exact ⟨[], [], h, k, kin, rfl, rfl⟩
  | cons e entries ih =>
    obtain ⟨checked, state⟩ := kin_checkIdle kin
    obtain ⟨kept, expired, g, g', after, collected, collected'⟩ := ih checked
    rw [Idle.collect_cons_of_some (lives h e.2), Idle.collect_cons_of_some (lives k e.2), collected,
      collected', state]
    exact ⟨_, _, g, g', after, rfl, rfl⟩

theorem kin_expire (kin : Kin c d) (e : Idle.Expiry Unit) : Kin (c.expire e) (d.expire e) :=
  kin.onHost (Host.kin_abort (Host.kin_log (Host.kin_count kin.host _) _ _) _)

theorem kin_sweep (kin : Kin c d) : Kin c.sweep.1 d.sweep.1 := by
  obtain ⟨_, rfl, kin⟩ := kin
  obtain ⟨kept, expired, g, g', after, collected, collected'⟩ :=
    kin_collect (fun _ _ => rfl) c.supervisor.entries kin
  unfold sweep Idle.Supervisor.inspect
  dsimp only
  rw [collected, collected']
  exact List.foldl_rel ⟨_, rfl, after⟩ fun e _ _ _ kin => kin_expire kin e

theorem kin_fetch (kin : Kin c d) : Kin c.fetch d.fetch := by
  obtain ⟨_, rfl, house, journal, rfl, same⟩ := kin
  unfold fetch
  dsimp only
  split
  · exact ⟨_, rfl, house, journal, rfl, same⟩
  · next queue _ =>
    let emptied := { c.host with session := { c.host.session with outbox := some [] } }
    have emptied : emptied.Kin { emptied with house, journal } := ⟨house, journal, rfl, same⟩
    exact ⟨_, rfl, List.foldl_rel emptied fun _ _ _ _ kin => Host.kin_note kin _⟩

theorem kin_dropWriter (kin : Kin c d) : Kin c.dropWriter.1 d.dropWriter.1 := by
  obtain ⟨_, rfl, house, journal, rfl, same⟩ := kin
  let shut := { c.host with session := { c.host.session with outbox := none } }
  have shut : shut.Kin { shut with house, journal } := ⟨house, journal, rfl, same⟩
  exact ⟨_, rfl, List.foldl_rel shut fun o _ _ _ kin => Host.kin_resolve kin o.ticket _⟩

theorem kin_write (kin : Kin c d) (how : Completion.Release) :
    Kin (c.write how).1 (d.write how).1 := by
  obtain ⟨_, rfl, host⟩ := kin
  unfold write
  dsimp only
  split
  · exact ⟨_, rfl, Host.kin_resolve host _ _⟩
  · exact ⟨_, rfl, host⟩

theorem kin_releaseHeld (kin : Kin c d) (index : Nat) (how : Completion.Release) :
    Kin (c.releaseHeld index how).1 (d.releaseHeld index how).1 := by
  have left := kin.host.set (fun h => { h with held := h.held.eraseIdx index })
    (fun _ _ _ => rfl) rfl
  have released (t : Ticket) := kin.onHost (Host.kin_resolve left t how.outcome)
  obtain ⟨_, rfl, house, journal, rfl, same⟩ := kin
  unfold releaseHeld
  dsimp only
  split
  · exact ⟨_, rfl, house, journal, rfl, same⟩
  · exact released _

theorem kin_start (kin : Kin c d) (detached : Bool) :
    Kin (c.start detached) (d.start detached) := by
  have started := (kin.set ({ · with phase := .starting, detached }) (fun _ _ => rfl) rfl).onHost
    (Host.kin_wake kin.host .driver)
  obtain ⟨_, rfl, host⟩ := kin
  unfold start
  dsimp only
  split
  · exact started
  all_goals exact ⟨_, rfl, host⟩

theorem kin_arrive (kin : Kin c d) (frames : List Frame) :
    Kin (c.arrive frames).1 (d.arrive frames).1 := by
  obtain ⟨_, rfl, host⟩ := kin
  have arrived := Host.kin_wake host .driver
  unfold arrive
  dsimp only
  split
  · exact ⟨_, rfl, host⟩
  · split
    · exact ⟨_, rfl, host⟩
    all_goals
      split
      · exact ⟨_, rfl, host⟩
      · exact ⟨_, rfl, arrived⟩

/-- Somebody sends something, and waits for the outcome. -/
theorem kin_tracked (kin : Kin c d) {f : Host σ → Ticket → Host σ}
    (kindred : ∀ t {h k : Host σ}, h.Kin k → (f h t).Kin (f k t)) :
    Kin (c.tracked f).1 (d.tracked f).1 := by
  have next := kin.set (fun c => { c with callers := c.callers + 1 }) (fun _ _ => rfl) rfl
  obtain ⟨_, rfl, host⟩ := kin
  exact next.onHost (kindred _ host)

theorem kin_act (kin : Kin c d) (app : Application σ) {x : Command} (atOnce : x.atOnce = true) :
    Kin (c.act app x).1 (d.act app x).1 := by
  have host := kin.host
  cases x with
  | send f batch => exact kin_tracked kin fun t _ _ kin => Host.kin_send kin f t batch
  | sendMessage kind chunks batch =>
    exact kin_tracked kin fun t _ _ kin => Host.kin_sendMessage kin kind chunks t batch
  | close code reason =>
    exact kin_tracked kin fun t _ _ kin => Host.kin_send kin (.close code reason) t false
  | handlerSend kind chunks batch =>
    refine kin_tracked kin fun t h k kin => ?_
    have attached : k.attached = h.attached := by
      obtain ⟨_, _, rfl, -⟩ := kin
      rfl
    rw [attached]
    split
    · exact Host.kin_sendMessage kin kind chunks t batch
    · exact Host.kin_resolve kin t _
  | demand n => exact kin.onHost (Host.kin_grant host n)
  | abort e => exact kin.onHost (Host.kin_abort host e)
  | setIdleTimeout t => exact kin.onHost (Host.kin_configure host (·.setIdleTimeout t))
  | change x => exact kin.onHost (Host.kin_configure host (·.apply x))
  | checkIdle => exact kin.onHost (kin_checkIdle host).1
  | touch => exact kin.onHost (host.set (·.touch) (fun _ _ _ => rfl) rfl)
  | shutdown => exact kin.onHost (host.set (·.stop) (fun _ _ _ => rfl) rfl)
  | takeDemand =>
    obtain ⟨_, rfl, house, journal, rfl, same⟩ := kin
    unfold act
    dsimp only
    split <;> exact ⟨_, rfl, house, journal, rfl, same⟩
  | waitForDemand =>
    have next := kin.set (fun c => { c with waiters := c.waiters + 1 }) (fun _ _ => rfl) rfl
    obtain ⟨_, rfl, host⟩ := kin
    exact next.onHost (Host.kin_wake host (.waiter c.waiters))
  | write how => exact kin_write kin how
  | dropWriter => exact kin_dropWriter kin
  | releaseHeld index how => exact kin_releaseHeld kin index how
  | start detached => exact kin_start kin detached
  | arrive frames => exact kin_arrive kin frames
  | endInbound =>
    exact (kin.set ({ · with ended := true }) (fun _ _ => rfl) rfl).onHost
      (Host.kin_wake host .driver)
  | sweep => exact kin_sweep kin
  | startSweeping =>
    have scheduled {c d : Connection σ} (kin : Kin c d) :
        Kin { c with sweepers := c.sweepers.start c.supervisor.rest c.host.now }
          { d with sweepers := d.sweepers.start d.supervisor.rest d.host.now } := by
      obtain ⟨_, rfl, house, journal, rfl, same⟩ := kin
      exact ⟨_, rfl, house, journal, rfl, same⟩
    exact scheduled (kin_sweep kin)
  | handOpening | handFrame _ | handFailure _ | handClosed _ | wait _ => cases atOnce

/-- Whatever is done to both, they go on to differ in nothing but what the house counts and in the
    lines of the log. -/
theorem kin_beat (kin : Kin c d) (app : Application σ) {b : Beat} (atOnce : b.atOnce = true) :
    Kin (c.beat app b) (d.beat app b) := by
  cases b with
  | act x => exact kin_act kin app atOnce
  | fetch => exact kin_fetch kin
  | clock now sweepers =>
    exact (kin.set ({ · with sweepers }) (fun _ _ => rfl) rfl).onHost
      (kin.host.set ({ · with now }) (fun _ _ _ => rfl) rfl)
  | step =>
    have stepped := kin_step kin app
    rw [beat, beat]
    generalize c.step app = r, d.step app = s at stepped ⊢
    cases stepped with
    | none => exact kin
    | some after => exact after

end WebSocketEngine.Connection
