import WebSocketEngine.Proofs.Connection.Settings
import WebSocketEngine.Proofs.Idle.Sweeping
import WebSocketEngine.Proofs.Upgrade.Outcome

/-!
Which values are in force, from an upgrade to the last beat of its connection.

    defaults ─▶ customizer ─▶ declaration ─▶ hooks            upgraded
        ─▶ through any handle                                 until it is connected
        ─▶ from outside, or by the application                ever after

Each layer overrides what it names of those before it.  There is one configuration for all handles of
a session, so its parts go by what was written last: the assembler when it judges a frame and when it
gives its unit back, the driver when it begins to read, and the tracker when it is checked
(`goesBy_of_config`).
-/

namespace WebSocketEngine

variable {σ : Type}

open Assembly (Assembler)
open Config (Change Layered Shared)
open Config.Shared (Access)

/-! ### What the parts go by -/

/-- The assembler `a` takes a frame by the values of `x`: it is too large just if its message would go
    beyond the limit, and for a frame that passes one unit is given back if the demand flag is set, as
    the application has left it by then. -/
structure Host.TakesBy (app : Application σ) (h : Host σ) (a : Assembler) (x : Config) (f : Frame)
    (t : Ticket) : Prop where
  judged : h.frame app f t =
    (h.judged f (a.step app.hooks x f)).settleFrame app f t (a.step app.hooks x f).2.2
  tooLarge : ∀ kind n limit,
    (a.step app.hooks x f).2.2 = .refused (.messageTooLarge kind n limit) ↔
      a.weigh app.hooks f = some (kind, n) ∧ x.limit kind = some limit ∧ limit < n
  units : ∃ calls, (h.frame app f t).1.calls = h.calls ++ calls ∧
    (h.frame app f t).1.session.demand = h.session.demand + app.units h.memory calls +
      if (a.step app.hooks x f).2.2.passes && (h.frame app f t).2.isNone &&
        (x.after (app.changes h.memory calls)).demanding && a.attached then 1 else 0

namespace Connection

/-- The parts of a connection go by the values of `x`: its assembler with the next frame, its driver
    when it begins to read, and its tracker at the next check. -/
structure GoesBy (app : Application σ) (c : Connection σ) (x : Config) : Prop where
  takes : ∃ a, c.host.handler = .assembling a ∧ ∀ f t, c.host.TakesBy app a x f t
  asks : ∀ d needsUnit, c.step app = some d → c.isReading = false →
    d.phase = .reading needsUnit → needsUnit = x.demanding
  expires : ∀ after, c.host.checkIdle.2.idleFor? = some after ↔
    c.host.session.tracker.expired = false ∧ x.idleMillis ≠ 0 ∧
      (Duration.ofMillis x.idleMillis).nanos ≤ after.nanos ∧
      after = c.host.session.tracker.idleFor c.host.now

end Connection

theorem Host.takesBy_of_config {app : Application σ} {h : Host σ} {a : Assembler}
    (handler : h.handler = .assembling a) (f : Frame) (t : Ticket) :
    h.TakesBy app a h.session.config f t where
  judged := frame_of_assembling app handler f t
  tooLarge _ _ _ := Assembler.tooLarge_iff
  units := by
    have whole := frame_of_assembling app handler f t
    dsimp only at whole
    let e := a.step app.hooks h.session.config f
    have judged : Heeds app 0 h (h.judged f e) := heeds_judged h f e
    have heeds := judged.before (heeds_settleFrame _ f t e.2.2)
    rw [← whole] at heeds
    obtain ⟨calls, called, -, config, demand⟩ := heeds.called
    have attached : (h.frame app f t).1.attached = a.attached := by
      rw [attached_frame, Host.attached, handler]
    refine ⟨calls, called, ?_⟩
    rw [demand, back, config, attached]

namespace Connection

variable {app : Application σ} {c d : Connection σ}

theorem demanding_sendPong (h : Host σ) (f : Frame) :
    (sendPong h f).demanding app = h.demanding app := by
  have still := (sends_sendPong h f).still
  have handler : (sendPong h f).handler = h.handler := (congrArg (·.handler) still :)
  have memory : (sendPong h f).memory = h.memory := (congrArg (·.memory) still :)
  rw [Host.demanding, Host.demanding, handler, memory, (sends_sendPong h f).config]

/-- A driver that begins to read asks the handler as it finds it. -/
theorem asks_of_step {needsUnit : Bool} (stepped : c.step app = some d)
    (busy : c.isReading = false) (reading : d.phase = .reading needsUnit) :
    needsUnit = c.host.demanding app := by
  have unread {p : Bool} (same : c.phase = .reading p) : needsUnit = c.host.demanding app := by
    cases (isReading_of_reading same).symm.trans busy
  have undone (done : d.Done) : needsUnit = c.host.demanding app := by
    obtain ⟨ending, finished⟩ := done
    cases reading.symm.trans finished
  cases pace_of_step stepped with
  | serves queue => exact unread reading
  | yields queue tired => exact unread reading
  | rests queue lacks => exact unread reading
  | turns awake way =>
    cases way with
    | enters starting =>
      have entered : (c.enter app).isReading = false := isReading_unlessCrashed nofun
      cases (isReading_of_reading reading).symm.trans entered
    | opens opening verdict =>
      cases reading
      rfl
    | @concludes f serving verdict =>
      unfold conclude at reading undone
      split at reading
      · next closes =>
        rw [closes] at undone
        exact undone (ends_finish app _ _).finished
      · cases reading
        exact demanding_sendPong c.host f
    | fails awaits outcome => exact undone (ends_fail app c _).finished
    | stops same stopping => exact unread same
    | aborts same going reason => exact unread same
    | takes same free taken => exact unread same
    | hands same free arrived => exact unread same
    | runsOut same free empty ended => exact unread same

theorem goesBy_of_config (assembles : c.host.Assembles) : GoesBy app c c.host.session.config where
  takes := by
    obtain ⟨a, handler⟩ := assembles
    exact ⟨a, handler, Host.takesBy_of_config handler⟩
  asks d needsUnit stepped busy reading := by
    obtain ⟨a, handler⟩ := assembles
    rw [asks_of_step stepped busy reading, Host.demanding, handler]
  expires after := by
    have inForce : c.host.session.config.idleTimeout ≠ .zero ↔
        c.host.session.config.idleMillis ≠ 0 := by
      simp [Config.idleTimeout, Duration.ofMillis, Duration.zero]
    rcases c.host.session.tracker.check_cases c.host.session.config.idleTimeout c.host.now with
      ⟨quiet, -, why⟩ | ⟨found, -, fresh, enabled, long⟩
    · have unfound : c.host.checkIdle.2.idleFor? = none := quiet
      refine iff_of_false (by simp [unfound]) ?_
      rintro ⟨fresh, enabled, long, rfl⟩
      rcases why with flagged | off | early
      · cases flagged.symm.trans fresh
      · exact inForce.mpr enabled off
      · exact Nat.not_lt.mpr long early
    · have struck : c.host.checkIdle.2.idleFor? =
          some (c.host.session.tracker.idleFor c.host.now) := found
      rw [struck, Option.some.injEq]
      constructor
      · rintro rfl
        exact ⟨fresh, inForce.mp enabled, long, rfl⟩
      · rintro ⟨-, -, -, rfl⟩
        rfl

end Connection

namespace Upgrade

/-- An upgrade layers its configuration, and no handle that there was reads anything else than before;
    the defaults are a value and serve the next one as they did this one.  Later every handle to it
    reads the value that was written last of each field, through any of them: the session's own one,
    the assembler's, and the tracker's, which is made when the session is connected.  Where all that is
    written from then on is what a run writes, each part of the connection goes by these values. -/
theorem last_written_in_force (sites : Routes (Site σ)) (defaults : Defaults) (request : Request)
    (response : Response) (u : Upgraded σ)
    (upgraded : (sites.served.upgrade defaults request response).verdict = .ok (.upgraded u)) :
    ∃ (s : Site σ) (context : Context) (e : Endpoint σ), Reaches sites request s context ∧
      (Negotiator.enter s.creator request context response).endpoint = some e ∧
      u.application = e.application ∧
      Layered defaults s.customizer e.declared e.application.hooks u.config ∧
      ∀ past early more : List Access,
        let old := Shared.empty.performAll past
        let own := old.handles.length
        let store := old.performAll
          (Shared.upgrade own defaults s.customizer e.declared e.application.hooks)
        let joined := store.performAll early
        let last := joined.performAll (.clone own :: more)
        let now := u.config.after (store.written own (early ++ .clone own :: more))
        (∀ h < own, store.read? h = old.read? h) ∧
        (∀ h ∈ [own, own + 1, joined.handles.length], last.shares own h = true) ∧
        (∀ h, last.shares own h = true → last.read? h = some now) ∧
        ∀ id interval house bs,
          let begun := { u with config := u.config.after (store.written own early) }
          let c := begun.connect id interval house
          let d := Connection.beats u.application c bs
          joined.written own (.clone own :: more) = Connection.written u.application c bs →
            d.host.session.config = now ∧ Connection.GoesBy u.application d now := by
  obtain ⟨s, context, e, reaches, made, rfl⟩ : ∃ (s : Site σ) (context : Context) (e : Endpoint σ),
      Reaches sites request s context ∧
        (Negotiator.enter s.creator request context response).endpoint = some e ∧
        u = s.session defaults request e := by
    cases exit sites defaults request response with
    | @upgraded s context e reaches _ made verdict _ _ =>
      cases upgraded.symm.trans verdict
      exact ⟨s, context, e, reaches, made, rfl⟩
    | unmatched _ verdict | stranded _ _ _ verdict | committed _ _ verdict
    | refused _ _ _ verdict => cases upgraded.symm.trans verdict
  refine ⟨s, context, e, reaches, made, rfl, Config.layered_prepare .., fun past early more => ?_⟩
  intro old own store joined last now
  have sound : old.Sound := Shared.sound_empty.performAll past
  have whole : last = store.performAll (early ++ .clone own :: more) :=
    (Shared.performAll_append _ _ _).symm
  refine ⟨fun h known => ?_, Shared.shares_upgrade old _ _ _ _ early more, fun h shares => ?_, ?_⟩
  · exact Shared.read?_upgrade_of_lt old _ _ _ _ sound known
  · rw [whole] at shares ⊢
    exact Shared.read?_of_shares_upgrade old _ _ _ _ sound _ shares
  · intro id interval house bs begun c d same
    obtain ⟨config, assembles⟩ := Connection.config_beats e.application c bs
    have reached : d.host.session.config = now := by
      show _ = Config.after _ (store.written own (early ++ .clone own :: more))
      rw [Shared.written_append, Config.after_append]
      exact config.trans (congrArg _ same.symm)
    refine ⟨reached, ?_⟩
    rw [← reached]
    exact Connection.goesBy_of_config (assembles ⟨.fresh, rfl⟩)

/-- A session whose timeout is declared, whose text limit comes from the customizer and whose binary
    limit is the default one: then the text limit is written through the assembler's handle, and the
    timeout through the tracker's. -/
theorem last_written_in_force_of_customized :
    let app : Application Unit :=
      ⟨{ Hooks.none with onText := true, demanding := true }, fun s _ => (s, ⟨[], .succeed⟩),
        fun _ => false⟩
    let e : Endpoint Unit :=
      ⟨app, (), { Change.nothing with idle := some (.ofSeconds 2 0) }, [], []⟩
    let s : Site Unit := ⟨fun _ _ => ⟨[], some e⟩,
      { Change.nothing with idle := some (.ofSeconds 1 0), maxText := some 10 }⟩
    let sites : Routes (Site Unit) := ⟨[(⟨"/", .anything⟩, s)]⟩
    let request := (Request.create "GET" "/").withStandardHeaders.withContext ⟨1⟩
    let u := s.session .standard request e
    let shorter : Change := { Change.nothing with maxText := some 5 }
    let d := Connection.beats app (u.connect ⟨1⟩ .zero .empty)
      [.act (.change shorter), .act (.setIdleTimeout (.ofSeconds 9 0))]
    (sites.served.upgrade .standard request .fresh).verdict = .ok (.upgraded u) ∧
      u.config = ⟨2000, 10, 65536, true⟩ ∧ Connection.GoesBy app d ⟨9000, 5, 65536, true⟩ := by
  intro app e s sites request u shorter d
  have found : sites.find? request.path = some (⟨"/", .anything⟩, s) := rfl
  have reaches : Reaches sites request s ⟨1⟩ := ⟨Request.asks_of_standard "/" ⟨1⟩, ⟨_, found⟩, rfl⟩
  have verdict : (sites.served.upgrade .standard request .fresh).verdict = .ok (.upgraded u) :=
    (upgraded_of_reaches .standard reaches rfl rfl).1
  obtain ⟨s', context, e', reached, made, -, -, run⟩ :=
    last_written_in_force sites .standard request .fresh u verdict
  obtain ⟨p, found'⟩ := reached.found
  obtain rfl : s = s' := congrArg Prod.snd (Option.some.inj (found.symm.trans found'))
  obtain rfl : (⟨1⟩ : Context) = context := Option.some.inj reached.context
  obtain rfl : e = e' := Option.some.inj made
  let more : List Access :=
    [.write 1 shorter, .write 2 { Change.nothing with idle := some (.ofSeconds 9 0) }]
  let store := Shared.empty.performAll
    (Shared.upgrade 0 .standard s.customizer e.declared app.hooks)
  obtain ⟨-, -, -, goes⟩ := run [] [] more
  have written : store.written 0 (.clone 0 :: more) =
      [shorter, { Change.nothing with idle := some (.ofSeconds 9 0) }] := by decide
  have now : u.config.after (store.written 0 (.clone 0 :: more)) = ⟨9000, 5, 65536, true⟩ := by
    decide
  have whole := goes ⟨1⟩ .zero .empty
    [.act (.change shorter), .act (.setIdleTimeout (.ofSeconds 9 0))] written
  rw [← now]
  exact ⟨verdict, rfl, whole.2⟩

end Upgrade

end WebSocketEngine
