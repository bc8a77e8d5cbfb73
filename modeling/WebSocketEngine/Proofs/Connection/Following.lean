import WebSocketEngine.Proofs.Connection.Turns

/-!
One who watches the driver keeps in step with it.

The phase of a connection and the outcome of its last callback say how things stand for one who
watches the driver (`Stands`):

    idle, starting   unopened
    opening          waiting, or clear once the opening has succeeded
    reading          free
    serving f        waiting for f; then clear, owing a PONG, or closed

What is done from outside changes that only through the token of the last callback, and there is one
such token at most (`follows_act`).
-/

namespace WebSocketEngine.Connection

variable {σ : Type} {app : Application σ} {w : Watch} {c d : Connection σ} {phase : Phase}
  {h k : Host σ}

open Host (Docket)

/-! ### How things stand -/

/-- How things stand in each phase, by the docket. -/
def Stands (w : Watch) (docket : Docket) : Phase → Prop
  | .idle | .starting => docket.callbacks = 0 ∧ w.stand = .unopened
  | .opening => w.stand = Watch.heard w.shut none docket.verdict
  | .serving f => w.stand = Watch.heard w.shut (some f) docket.verdict
  | .reading _ => docket.verdict = some (.ok ()) ∧ w.stand = .free
  | .finished _ => w.stand ≠ .stuck ∧ (docket.verdict = none → ∃ x, w.stand = .waiting x)

theorem Stands.of_docket {docket docket' : Docket} (stands : Stands w docket phase)
    (callbacks : docket'.callbacks = docket.callbacks)
    (verdict : docket'.verdict = docket.verdict) : Stands w docket' phase := by
  cases phase <;> simpa only [Stands, callbacks, verdict] using stands

theorem heard_ne_stuck (shut : Bool) (x : Option Frame) (verdict : Option Outcome) :
    Watch.heard shut x verdict ≠ .stuck := by
  intro stuck
  rcases verdict with _ | _ | u
  · cases stuck
  · cases stuck
  · rcases x with _ | f
    · cases stuck
    · simp only [Watch.heard, Watch.after] at stuck
      split at stuck
      · cases stuck
      · split at stuck <;> cases stuck

/-- A connection that is over may be in the middle of a callback. -/
theorem stands_closed {docket : Docket} {x : Option Frame} {ending : Ending}
    (stand : w.stand = Watch.heard w.shut x docket.verdict) :
    Stands w docket (.finished ending) := by
  refine ⟨fun stuck => heard_ne_stuck _ _ _ (stand.symm.trans stuck), fun waiting => ⟨x, ?_⟩⟩
  rw [stand, waiting]
  rfl

theorem Stands.closed {docket : Docket} (stands : Stands w docket phase) (begun : phase ≠ .idle)
    (entered : phase ≠ .starting) (ending : Ending) : Stands w docket (.finished ending) := by
  cases phase with
  | idle => exact (begun rfl).elim
  | starting => exact (entered rfl).elim
  | opening | serving f => exact stands_closed stands
  | reading needsUnit =>
    obtain ⟨verdict, free⟩ := stands
    refine ⟨fun stuck => ?_, fun waiting => ?_⟩
    · rw [free] at stuck
      cases stuck
    · rw [verdict] at waiting
      cases waiting
  | finished _ => exact stands

theorem Stands.mute {docket : Docket} (stands : Stands w docket phase) :
    Stands w.mute docket phase := by
  have heard (x : Option Frame) (verdict : Option Outcome)
      (stand : w.stand = Watch.heard w.shut x verdict) :
      w.mute.stand = Watch.heard w.mute.shut x verdict := by
    unfold Watch.mute
    rw [stand]
    rcases verdict with _ | _ | u
    · rfl
    · rfl
    · rcases x with _ | f
      · rfl
      · simp only [Watch.heard, Watch.after]
        by_cases close : f.op = .close
        · simp [close]
        · by_cases ping : (f.op = .ping && !w.shut) = true <;> simp [close, ping]
  cases phase with
  | idle | starting =>
    obtain ⟨first, stand⟩ := stands
    exact ⟨first, by rw [Watch.mute, stand]⟩
  | opening | serving f => exact heard _ _ stands
  | reading needsUnit =>
    obtain ⟨verdict, stand⟩ := stands
    exact ⟨verdict, by rw [Watch.mute, stand]⟩
  | finished ending =>
    obtain ⟨well, waiting⟩ := stands
    unfold Watch.mute
    refine ⟨?_, fun unresolved => ?_⟩
    · cases stand : w.stand with
      | stuck => exact (well stand).elim
      | unopened | waiting _ | owing _ | clear | free | closed =>
        intro stuck
        cases stuck
    · obtain ⟨x, stand⟩ := waiting unresolved
      exact ⟨x, by rw [stand]⟩

/-- The session may have been shut. -/
theorem Stands.hushed {docket : Docket} (stands : Stands w docket phase)
    (shut : w.shut = h.isShut) (stays : h.isShut = true → k.isShut = true) :
    Stands (w.run (Host.hushed h k)) docket phase ∧ (w.run (Host.hushed h k)).shut = k.isShut := by
  unfold Host.hushed
  cases before : h.isShut with
  | true =>
    rw [stays before]
    exact ⟨stands, shut.trans before⟩
  | false =>
    cases after : k.isShut with
    | false => exact ⟨stands, shut.trans before⟩
    | true => exact ⟨stands.mute, rfl⟩

/-- The last callback has its outcome. -/
theorem Stands.resolved {docket : Docket} (stands : Stands w docket phase)
    (given : 0 < docket.callbacks) (waiting : docket.verdict = none) (o : Outcome) :
    Stands (w.trans (.resolved o)) { docket with verdict := some o } phase := by
  have heard {x : Option Frame} (stand : w.stand = .waiting x) :
      w.trans (.resolved o) = ⟨Watch.heard w.shut x (some o), w.shut⟩ := by
    obtain ⟨_, shut⟩ := w
    obtain rfl := stand
    rfl
  cases phase with
  | idle | starting => exact absurd stands.1 given.ne'
  | reading needsUnit => cases waiting.symm.trans stands.1
  | opening | serving f =>
    rw [Stands, waiting] at stands
    rw [heard stands]
    rfl
  | finished ending =>
    obtain ⟨x, stand⟩ := stands.2 waiting
    rw [heard stand]
    exact ⟨heard_ne_stuck _ _ _, nofun⟩

/-! ### What every beat keeps -/

/-- The driver waits for an outcome. -/
def Phase.awaits : Phase → Bool
  | .opening | .serving _ => true
  | .idle | .starting | .reading _ | .finished _ => false

/-- The watcher is in step with the connection. -/
structure Follows (w : Watch) (c : Connection σ) : Prop where
  shut : w.shut = c.host.isShut
  stands : Stands w c.host.docket c.phase
  linear : c.host.docket.Linear
  outward : c.host.Outward
  fetched : ∀ o ∈ c.fetched, o.ticket.sink.Outside
  awake : c.phase.awaits = true → c.host.verdict ≠ none → .driver ∈ c.host.ready

/-- The driver does not notice. -/
structure Aside (c d : Connection σ) : Prop where
  keeps : Host.Keeps c.host d.host
  docket : d.host.docket = c.host.docket
  phase : d.phase = c.phase ∨ c.phase = .idle ∧ d.phase = .starting
  fetched : c.host.Outward → (∀ o ∈ c.fetched, o.ticket.sink.Outside) →
    ∀ o ∈ d.fetched, o.ticket.sink.Outside

theorem Follows.aside (follows : Follows w c) (aside : Aside c d) :
    Follows (w.run (Host.signs c.host d.host)) d := by
  obtain ⟨stands, shut⟩ := follows.stands.hushed follows.shut aside.keeps.shut
  have verdict : d.host.verdict = c.host.verdict := congrArg Docket.verdict aside.docket
  rw [Host.signs_of_docket aside.docket]
  refine ⟨shut, ?_, aside.docket ▸ follows.linear, aside.keeps.outward follows.outward,
    aside.fetched follows.outward follows.fetched, fun awaits decided => ?_⟩
  · rw [aside.docket]
    rcases aside.phase with same | ⟨idle, starting⟩
    · rwa [same]
    · rw [idle] at stands
      rwa [starting]
  · rw [verdict] at decided
    refine aside.keeps.awake (follows.awake ?_ decided)
    rcases aside.phase with same | ⟨-, starting⟩
    · rwa [← same]
    · rw [starting] at awaits
      cases awaits

/-! ### From outside -/

theorem aside_of_docket (keeps : Host.Keeps c.host d.host) (docket : d.host.docket = c.host.docket)
    (phase : d.phase = c.phase) (fetched : ∀ o ∈ d.fetched, o ∈ c.fetched) : Aside c d :=
  ⟨keeps, docket, .inl phase, fun _ outside o mem => outside o (fetched o mem)⟩

/-- Nothing of what matters has changed. -/
theorem aside_of_eq (closeSent : d.host.session.closeSent = c.host.session.closeSent)
    (outbox : d.host.session.outbox = c.host.session.outbox) (ready : d.host.ready = c.host.ready)
    (docket : d.host.docket = c.host.docket) (phase : d.phase = c.phase)
    (fetched : d.fetched = c.fetched) : Aside c d :=
  aside_of_docket (Host.keeps_of_eq closeSent outbox fun awake => ready ▸ awake) docket phase
    fun _ mem => fetched ▸ mem

theorem Aside.trans {e : Connection σ} (first : Aside c d) (same : d.phase = c.phase)
    (second : Aside d e) : Aside c e where
  keeps := first.keeps.trans second.keeps
  docket := second.docket.trans first.docket
  phase := same ▸ second.phase
  fetched outward outside :=
    second.fetched (first.keeps.outward outward) (first.fetched outward outside)

/-- A sweep may abort the connection, and the driver will hear of that later. -/
theorem aside_sweep (c : Connection σ) : Aside c c.sweep.1 ∧ c.sweep.1.phase = c.phase := by
  refine sweep_preserves (I := fun d => Aside c d ∧ d.phase = c.phase) ?_ ?_ ?_
    ⟨aside_of_eq rfl rfl rfl rfl rfl rfl, rfl⟩
  · rintro d ⟨aside, same⟩
    exact ⟨aside.trans same (aside_of_eq rfl rfl rfl rfl rfl rfl), same⟩
  · rintro d supervisor ⟨aside, same⟩
    exact ⟨aside.trans same (aside_of_eq rfl rfl rfl rfl rfl rfl), same⟩
  · rintro d e ⟨aside, same⟩
    let told := (d.host.count .idleTimeout).log (Idle.expiryLine e.id e.idleFor)
    have counted : Host.Keeps d.host told := Host.keeps_of_eq rfl rfl fun awake => awake
    have aborts : Host.Offers .pong [] told (told.abort (.idleTimeout e.idleFor)) :=
      Host.offers_abort told _
    have aborted : Aside d (d.expire e) := aside_of_docket (counted.trans aborts.toKeeps)
      ((Host.docket_abort told _).trans (Host.docket_note _ rfl)) rfl fun _ mem => mem
    exact ⟨aside.trans same aborted, same⟩

theorem aside_dropWriter (follows : Follows w c) : Aside c c.dropWriter.1 := by
  have outside : ∀ o ∈ c.host.session.outbox.getD [] ++ c.fetched, o.ticket.sink.Outside := by
    intro o mem
    rcases List.mem_append.mp mem with queued | mem
    · cases writer : c.host.session.outbox with
      | none => rw [writer] at queued; cases queued
      | some queue => rw [writer] at queued; exact follows.outward queue writer o queued
    · exact follows.fetched o mem
  have sends := Host.sends_foldl_drop (P := fun _ => False) outside
    { c.host with session := { c.host.session with outbox := none } }
  have gone : Host.Keeps c.host { c.host with session := { c.host.session with outbox := none } } :=
    { shut := fun _ => Bool.or_true _
      outward := fun _ _ gone => nomatch gone
      awake := fun awake => awake }
  have docket : c.dropWriter.1.host.docket = c.host.docket := (Host.docket_sends sends :)
  exact aside_of_docket (gone.trans (Host.keeps_of_sends sends)) docket rfl
    fun _ mem => (List.not_mem_nil mem).elim

theorem aside_fetch (c : Connection σ) : Aside c c.fetch := by
  unfold fetch
  split
  · exact aside_of_eq rfl rfl rfl rfl rfl rfl
  · next queue writer =>
    let emptied := { c.host with session := { c.host.session with outbox := some [] } }
    have noted : ∀ (queue : List Outbound) (h : Host σ),
        (queue.foldl (fun h o => h.note (.fetched o.frame o.batch)) h).docket = h.docket ∧
          Host.Keeps h (queue.foldl (fun h o => h.note (.fetched o.frame o.batch)) h) := by
      intro queue
      induction queue with
      | nil => exact fun h => ⟨rfl, Host.keeps_of_eq rfl rfl fun awake => awake⟩
      | cons o queue ih =>
        intro h
        let noted := h.note (.fetched o.frame o.batch)
        have one : Host.Keeps h noted := Host.keeps_of_eq rfl rfl fun awake => awake
        exact ⟨(ih noted).1.trans (Host.docket_note h rfl), one.trans (ih noted).2⟩
    have emptying : Host.Keeps c.host emptied :=
      { shut := fun shut => by rw [Host.isShut, writer] at shut; exact shut
        outward := fun _ queue' gone o mem => by cases gone; cases mem
        awake := fun awake => awake }
    refine ⟨emptying.trans (noted queue emptied).2, (noted queue emptied).1, .inl rfl,
      fun outward outside o mem => ?_⟩
    exact (List.mem_append.mp mem).elim (outside o) (outward queue writer o)

/-- But for the tokens that the application keeps, the driver notices nothing of what is done from
    outside. -/
theorem aside_act (app : Application σ) (follows : Follows w c) {x : Command}
    (atOnce : x.atOnce = true) (unheld : ∀ index how, x ≠ .releaseHeld index how) :
    Aside c (c.act app x).1 := by
  have plain {d : Connection σ} (keeps : Host.Keeps c.host d.host)
      (docket : d.host.docket = c.host.docket) (phase : d.phase = c.phase)
      (fetched : d.fetched = c.fetched) : Aside c d :=
    aside_of_docket keeps docket phase fun o mem => fetched ▸ mem
  have offering (sending : x.sends = true) : Aside c (c.act app x).1 := by
    obtain ⟨h, sends, acted⟩ := act_of_sends app c sending
    rw [acted]
    exact plain (Host.keeps_of_sends sends) (Host.docket_sends sends) rfl rfl
  have woken {k : Host σ} (closeSent : k.session.closeSent = c.host.session.closeSent)
      (outbox : k.session.outbox = c.host.session.outbox) : Host.Keeps c.host (k.wake .driver) :=
    Host.keeps_of_eq closeSent outbox fun _ => Host.mem_enqueue.mpr (.inr rfl)
  have same : Aside c c := aside_of_eq rfl rfl rfl rfl rfl rfl
  cases x with
  | send | close | sendMessage | handlerSend => exact offering rfl
  | demand n => exact plain (Host.offers_grant c.host n : Host.Offers .pong [] _ _).toKeeps rfl rfl rfl
  | takeDemand =>
    rcases takeDemand_cases app c with none | ⟨session, taken, took⟩
    · rw [none]
      exact same
    · obtain ⟨-, rfl⟩ := Session.eq_of_take? taken
      rw [took]
      exact aside_of_eq rfl rfl rfl rfl rfl rfl
  | waitForDemand =>
    exact plain (Host.keeps_of_eq rfl rfl fun awake => Host.mem_enqueue.mpr (.inl awake)) rfl rfl
      rfl
  | abort e =>
    exact plain (Host.offers_abort c.host e : Host.Offers .pong [] _ _).toKeeps (Host.docket_abort _ _)
      rfl rfl
  | setIdleTimeout _ | change _ | checkIdle | touch => exact aside_of_eq rfl rfl rfl rfl rfl rfl
  | write how =>
    rcases write_cases app c how with none | ⟨o, rest, fetched, wrote⟩
    · rw [none]
      exact same
    · have outside : o.ticket.sink.Outside := follows.fetched o (by simp [fetched])
      have sends := Host.sends_resolve (P := fun _ => False) c.host outside how.outcome
      rw [wrote]
      refine aside_of_docket (Host.keeps_of_sends sends) (Host.docket_sends sends) rfl
        fun p mem => ?_
      rw [fetched]
      exact List.mem_cons_of_mem _ mem
  | dropWriter => exact aside_dropWriter follows
  | start detached =>
    rcases start_cases app c detached with none | ⟨idle, started⟩
    · rw [none]
      exact same
    · rw [started]
      exact ⟨woken rfl rfl, rfl, .inr ⟨idle, rfl⟩, fun _ outside => outside⟩
  | arrive frames =>
    rcases arrive_cases app c frames with none | ⟨-, -, arrived⟩
    · rw [none]
      exact same
    · rw [arrived]
      exact plain (woken rfl rfl) rfl rfl rfl
  | endInbound | shutdown => exact plain (woken rfl rfl) rfl rfl rfl
  | sweep | startSweeping =>
    obtain ⟨aside, same⟩ := aside_sweep c
    exact ⟨aside.keeps, aside.docket, .inl same, aside.fetched⟩
  | releaseHeld index how => exact (unheld index how rfl).elim
  | wait _ | handOpening | handFrame _ | handFailure _ | handClosed _ => cases atOnce

/-- A token that the application has kept is let go of: the last callback may have its outcome. -/
theorem follows_release (follows : Follows w c) {i : Nat} {t : Ticket}
    (kept : c.host.held[i]? = some t) (how : Completion.Release)
    (same : d.host = { c.host with held := c.host.held.eraseIdx i }.resolve t how.outcome)
    (phase : d.phase = c.phase) (fetched : d.fetched = c.fetched) :
    Follows (w.run (Host.signs c.host d.host)) d := by
  let k := { c.host with held := c.host.held.eraseIdx i }
  obtain ⟨linear, mine⟩ := follows.linear.release (d := c.host.docket) kept
  have session : d.host.session = c.host.session :=
    (congrArg Host.session same).trans (Host.session_resolve k t how.outcome)
  have ready : .driver ∈ c.host.ready → .driver ∈ d.host.ready := fun awake =>
    same ▸ (Host.offers_resolve k t how.outcome : Host.Offers .pong [] _ _).awake awake
  have keeps : Host.Keeps c.host d.host :=
    Host.keeps_of_eq (congrArg Session.closeSent session) (congrArg Session.outbox session) ready
  have still : d.host.isShut = c.host.isShut := by rw [Host.isShut, session]; rfl
  have quiet := Host.hushed_of_isShut still
  have outward := keeps.outward follows.outward
  have outside : ∀ o ∈ d.fetched, o.ticket.sink.Outside := fetched ▸ follows.fetched
  rcases Host.docket_resolve k t how.outcome with docket | ⟨last, awake, whole, docket⟩
  · rw [← same] at docket
    have signs : Host.signs c.host d.host = [] :=
      (Host.signs_of_same (congrArg Docket.events docket) (congrArg Docket.callbacks docket)
        (congrArg Docket.verdict docket)).trans quiet
    rw [signs]
    refine ⟨follows.shut.trans still.symm, ?_, docket ▸ linear, outward, outside,
      fun awaits decided => ready (follows.awake (phase ▸ awaits) ?_)⟩
    · rw [docket, phase]
      exact follows.stands.of_docket rfl rfl
    · rwa [show d.host.verdict = c.host.verdict from congrArg Docket.verdict docket] at decided
  · obtain ⟨given, waiting, linear⟩ := mine last
    rw [← same] at docket awake
    have events : d.host.events = c.host.events ++ [] :=
      (congrArg Docket.events docket).trans (List.append_nil _).symm
    have verdict : d.host.verdict = some whole := congrArg Docket.verdict docket
    have decided : Host.decided c.host d.host = [.resolved whole] := by
      have undecided : c.host.verdict = none := waiting
      have other : ¬(d.host.callbacks = c.host.callbacks ∧ some whole = none) := by
        rintro ⟨-, none⟩
        cases none
      rw [Host.decided, verdict, undecided, if_neg other]
      rfl
    rw [Host.signs_of_events events, quiet, decided]
    have stands := follows.stands.resolved given waiting whole
    refine ⟨?_, ?_, docket ▸ linear whole, outward, outside, fun _ _ => awake⟩
    · exact (w.shut_trans (s := .resolved whole) Sign.noConfusion).trans (follows.shut.trans still.symm)
    · rw [docket, phase]
      exact stands.of_docket rfl rfl

theorem follows_act (app : Application σ) (follows : Follows w c) {x : Command}
    (atOnce : x.atOnce = true) :
    Follows (w.run (Host.signs c.host (c.act app x).1.host)) (c.act app x).1 := by
  by_cases held : ∃ index how, x = .releaseHeld index how
  · obtain ⟨index, how, rfl⟩ := held
    rcases releaseHeld_cases app c index how with none | ⟨t, kept, released⟩
    · rw [none]
      exact follows.aside (aside_of_eq rfl rfl rfl rfl rfl rfl)
    · rw [released]
      exact follows_release follows kept how rfl rfl rfl
  · exact follows.aside (aside_act app follows atOnce fun index how same => held ⟨index, how, same⟩)

/-- What is done from outside is no event at the handler. -/
theorem events_act (app : Application σ) (follows : Follows w c) {x : Command}
    (atOnce : x.atOnce = true) : (c.act app x).1.host.events = c.host.events := by
  by_cases held : ∃ index how, x = .releaseHeld index how
  · obtain ⟨index, how, rfl⟩ := held
    rcases releaseHeld_cases app c index how with none | ⟨t, -, released⟩
    · rw [none]
    · rw [released]
      exact Host.record_deliver { c.host with held := _, ledger := _ } _ fun _ _ => rfl
  · exact congrArg Docket.events
      (aside_act app follows atOnce fun index how same => held ⟨index, how, same⟩).docket

theorem Follows.ne_stuck (follows : Follows w c) : w.stand ≠ .stuck := by
  have stands := follows.stands
  generalize c.phase = phase at stands
  cases phase with
  | idle | starting =>
    rw [stands.2]
    nofun
  | opening | serving f => exact fun stuck => heard_ne_stuck _ _ _ (stands.symm.trans stuck)
  | reading _ =>
    rw [stands.2]
    nofun
  | finished _ => exact stands.1

theorem follows_establish (supervised : Bool) (memory : σ) (handler : Handler) (id : ConnectionId)
    (config : Config) (interval : Duration) (house : House) :
    Follows Watch.start (establish supervised memory handler id config interval house) := by
  have created : Follows Watch.start (create memory handler id config interval house) :=
    { shut := rfl
      stands := ⟨rfl, rfl⟩
      linear := ⟨nofun, Nat.zero_le _⟩
      outward := fun _ empty _ mem => by cases empty; cases mem
      fetched := nofun
      awake := nofun }
  cases supervised with
  | false => exact created
  | true =>
    exact ⟨created.shut, created.stands, created.linear, created.outward, created.fetched,
      created.awake⟩

/-- Where nobody has anything to do, a running driver owes nothing and has gone on. -/
theorem Follows.rested (follows : Follows w c) (running : c.running = true)
    (quiet : c.step app = none) : (∀ p, w.stand ≠ .owing p) ∧ w.stand ≠ .clear := by
  have waits {x : Option Frame} (stand : w.stand = Watch.heard w.shut x c.host.verdict)
      (awaits : c.phase.awaits = true) :
      (∀ p, w.stand ≠ .owing p) ∧ w.stand ≠ .clear := by
    cases verdict : c.host.verdict with
    | none =>
      rw [stand, verdict]
      exact ⟨nofun, nofun⟩
    | some o =>
      have awake := follows.awake awaits (by rw [verdict]; nofun)
      rw [ready_of_quiet quiet] at awake
      cases awake
  have stands := follows.stands
  cases phase : c.phase with
  | idle | finished _ =>
    rw [Connection.running, phase] at running
    cases running
  | starting | reading _ =>
    rw [phase] at stands
    rw [stands.2]
    exact ⟨nofun, nofun⟩
  | opening =>
    rw [phase] at stands
    exact waits stands (by rw [phase]; rfl)
  | serving f =>
    rw [phase] at stands
    exact waits stands (by rw [phase]; rfl)

end WebSocketEngine.Connection
