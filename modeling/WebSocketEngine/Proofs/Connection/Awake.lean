import WebSocketEngine.Proofs.Connection.Ways

/-!
A driver that could go on is awake.

The driver is in the ready queue, or what it waits for is not there, and then it is parked if that
is a unit of demand (`Awake`).  Whatever is done from outside either changes nothing for the driver
or wakes it (`Tells`, `Nudges`):

    a unit, while it is parked       grant
    an outcome, an abort             resolve, abort
    a shutdown, frames, their end    wake

So where nobody has anything to do, the driver lacks something (`Awake.lacks`).
-/

namespace WebSocketEngine

variable {σ : Type}

/-! ### Hosts -/

namespace Host

variable {h k l : Host σ}

/-- What a driver that is not ready may count on. -/
structure Same (h k : Host σ) : Prop where
  verdict : k.verdict = h.verdict
  signalled : k.signalled = h.signalled
  parked : .driver ∈ h.parked → h.session.demand = 0 → .driver ∈ k.parked ∧ k.session.demand = 0

/-- Nothing has changed for the driver, or it is told. -/
structure Tells (h k : Host σ) : Prop where
  firm : Firm [] h k
  told : .driver ∈ k.ready ∨ Same h k

theorem same_refl (h : Host σ) : Same h h := ⟨rfl, rfl, fun parked none => ⟨parked, none⟩⟩

theorem Same.trans (first : Same h k) (second : Same k l) : Same h l where
  verdict := second.verdict.trans first.verdict
  signalled := second.signalled.trans first.signalled
  parked mem none := by
    obtain ⟨mem, none⟩ := first.parked mem none
    exact second.parked mem none

theorem tells_refl (h : Host σ) : Tells h h := ⟨firm_refl h, .inr (same_refl h)⟩

theorem Tells.trans (first : Tells h k) (second : Tells k l) : Tells h l where
  firm := first.firm.trans second.firm
  told := by
    rcases second.told with ready | same
    · exact .inl ready
    · rcases first.told with ready | before
      · exact .inl (second.firm.awake ready)
      · exact .inr (before.trans same)

/-- Nothing of what matters has changed. -/
theorem Firm.tells (firm : Firm [] h k) (verdict : k.verdict = h.verdict)
    (reason : k.session.abortReason = h.session.abortReason) (stopping : k.shutdown = h.shutdown)
    (demand : k.session.demand = h.session.demand)
    (parked : .driver ∈ h.parked → .driver ∈ k.parked) :
    Tells h k where
  firm := firm
  told := .inr ⟨verdict, by rw [signalled, reason, stopping]; rfl,
    fun mem none => ⟨parked mem, demand.trans none⟩⟩

theorem tells_of_sends {P : Frame → Prop} (sends : Sends P h k) : Tells h k :=
  (firm_of_sends sends).tells (congrArg (·.verdict) sends.still :)
    (congrArg (·.session.abortReason) sends.still :) (congrArg (·.shutdown) sends.still :)
    sends.demand fun mem => (congrArg (·.parked) sends.still :).symm ▸ mem

/-- The driver itself is woken. -/
theorem tells_wake (firm : Firm [] h (k.wake .driver)) : Tells h (k.wake .driver) :=
  ⟨firm, .inl (mem_enqueue.mpr (.inr rfl))⟩

theorem tells_deliver (h : Host σ) (d : Option (Completion.Delivery Sink)) :
    Tells h (h.deliver d) := by
  have firm := firm_deliver h d
  unfold deliver at firm ⊢
  split
  · exact tells_refl h
  · exact tells_refl h
  · exact firm.tells rfl rfl rfl rfl fun mem => mem
  · next n o =>
    by_cases last : n = h.callbacks
    · rw [if_pos last]
      exact tells_wake (k := { h with verdict := some o })
        (firm_of_eq rfl rfl (fun _ => mem_enqueue.mpr (.inr rfl)) rfl)
    · rw [if_neg last]
      exact tells_refl h

theorem tells_resolve (h : Host σ) (t : Ticket) (o : Outcome) : Tells h (h.resolve t o) := by
  have booked : Firm [] h { h with ledger := (h.ledger.resolve t o).1 } :=
    firm_of_eq rfl rfl (fun awake => awake) rfl
  exact (booked.tells rfl rfl rfl rfl fun mem => mem).trans (tells_deliver { h with ledger := _ } _)

theorem tells_foldl_drop (left : List Outbound) (h : Host σ) :
    Tells h (left.foldl (fun h o => h.drop o.ticket) h) := by
  induction left generalizing h with
  | nil => exact tells_refl h
  | cons o left ih => exact (tells_resolve h o.ticket _).trans (ih _)

/-- A driver that is parked hears of new demand; for another one there is nothing new. -/
theorem tells_grant (h : Host σ) (n : UInt64) : Tells h (h.grant n) := by
  refine ⟨firm_of_work (.grant n), ?_⟩
  by_cases parked : .driver ∈ h.parked
  · exact .inl (mem_foldl_enqueue.mpr (.inr parked))
  · exact .inr ⟨rfl, rfl, fun mem => (parked mem).elim⟩

/-- No unit is taken where there is none. -/
theorem tells_take {session : Session} (taken : h.session.take? = some session) :
    Tells h { h with session } := by
  obtain ⟨some, rfl⟩ := Session.eq_of_take? taken
  exact ⟨firm_of_eq rfl rfl (fun awake => awake) rfl,
    .inr ⟨rfl, rfl, fun _ none => (some none).elim⟩⟩

theorem tells_abort (h : Host σ) (e : Failure) : Tells h (h.abort e) := by
  rcases abort_cases h e with same | ⟨-, aborted⟩
  · rw [same]
    exact tells_refl h
  · have firm := firm_abort h e
    rw [aborted] at firm ⊢
    exact tells_wake firm

end Host

namespace Connection

variable {app : Application σ} {c d e : Connection σ}

/-! ### From outside -/

/-- What is done from outside, as far as the driver is concerned. -/
structure Nudges (c d : Connection σ) : Prop where
  tells : Host.Tells c.host d.host
  phase : d.phase = c.phase ∨ c.phase = .idle ∧ d.phase = .starting
  stream : .driver ∈ d.host.ready ∨ d.phase = c.phase ∧ d.inbound = c.inbound ∧ d.ended = c.ended

theorem nudges_of_tells (tells : Host.Tells c.host d.host) (phase : d.phase = c.phase)
    (inbound : d.inbound = c.inbound) (ended : d.ended = c.ended) : Nudges c d :=
  ⟨tells, .inl phase, .inr ⟨phase, inbound, ended⟩⟩

theorem nudges_refl (c : Connection σ) : Nudges c c :=
  nudges_of_tells (Host.tells_refl _) rfl rfl rfl

/-- Only the host changes, and nothing of it that matters. -/
theorem nudges_of_eq (verdict : d.host.verdict = c.host.verdict)
    (reason : d.host.session.abortReason = c.host.session.abortReason)
    (stopping : d.host.shutdown = c.host.shutdown)
    (demand : d.host.session.demand = c.host.session.demand)
    (parked : d.host.parked = c.host.parked)
    (ready : .driver ∈ c.host.ready → .driver ∈ d.host.ready)
    (journal : d.host.journal = c.host.journal) (phase : d.phase = c.phase)
    (inbound : d.inbound = c.inbound) (ended : d.ended = c.ended) : Nudges c d :=
  nudges_of_tells ((Host.firm_of_eq reason stopping ready journal).tells verdict reason stopping
    demand fun mem => parked ▸ mem) phase inbound ended

/-- The driver is woken. -/
theorem nudges_wake {k : Host σ} (woken : d.host = k.wake .driver)
    (reason : k.session.abortReason = c.host.session.abortReason)
    (stopping : c.host.shutdown = true → k.shutdown = true) (journal : k.journal = c.host.journal)
    (phase : d.phase = c.phase ∨ c.phase = .idle ∧ d.phase = .starting) : Nudges c d := by
  have ready : .driver ∈ d.host.ready := by
    rw [woken]
    exact Host.mem_enqueue.mpr (.inr rfl)
  have firm : Host.Firm [] c.host d.host := by
    rw [woken]
    exact ⟨⟨fun _ given => reason.trans given, stopping,
      (Host.record_of_journal journal _).trans (List.append_nil _).symm⟩,
      fun _ => Host.mem_enqueue.mpr (.inr rfl)⟩
  exact ⟨⟨firm, .inl ready⟩, phase, .inl ready⟩

theorem nudges_sweep (c : Connection σ) : Nudges c c.sweep.1 := by
  have swept : Host.Tells c.host c.sweep.1.host ∧ c.sweep.1.phase = c.phase ∧
      c.sweep.1.inbound = c.inbound ∧ c.sweep.1.ended = c.ended := by
    refine sweep_preserves (I := fun d => Host.Tells c.host d.host ∧ d.phase = c.phase ∧
      d.inbound = c.inbound ∧ d.ended = c.ended) ?_ (fun _ _ same => same) ?_
      ⟨Host.tells_refl _, rfl, rfl, rfl⟩
    · rintro d ⟨tells, same⟩
      have checked : Host.Firm [] d.host d.host.checkIdle.1 :=
        Host.firm_of_eq rfl rfl (fun awake => awake) rfl
      exact ⟨tells.trans (checked.tells rfl rfl rfl rfl fun mem => mem), same⟩
    · rintro d e ⟨tells, same⟩
      let counted := d.host.count .idleTimeout
      let told := counted.log (Idle.expiryLine e.id e.idleFor)
      have counting : Host.Firm [] d.host counted :=
        Host.firm_of_eq rfl rfl (fun awake => awake) rfl
      have logged : Host.Tells d.host told :=
        (counting.trans (Host.firm_note counted (.logged (Idle.expiryLine e.id e.idleFor)))).tells
          rfl rfl rfl rfl fun mem => mem
      exact ⟨(tells.trans logged).trans (Host.tells_abort told (.idleTimeout e.idleFor)), same⟩
  obtain ⟨tells, phase, inbound, ended⟩ := swept
  exact nudges_of_tells tells phase inbound ended

theorem nudges_fetch (c : Connection σ) : Nudges c c.fetch := by
  have noted : ∀ (queue : List Outbound) (h : Host σ),
      Host.Tells h (queue.foldl (fun h o => h.note (.fetched o.frame o.batch)) h) := by
    intro queue
    induction queue with
    | nil => exact Host.tells_refl
    | cons o queue ih =>
      intro h
      have one := (Host.firm_note h (.fetched o.frame o.batch)).tells rfl rfl rfl rfl fun mem => mem
      exact one.trans (ih _)
  unfold fetch
  split
  · exact nudges_refl c
  · next queue _ =>
    let emptied := { c.host with session := { c.host.session with outbox := some [] } }
    have emptying : Host.Firm [] c.host emptied :=
      Host.firm_of_eq rfl rfl (fun awake => awake) rfl
    exact nudges_of_tells ((emptying.tells rfl rfl rfl rfl fun mem => mem).trans
      (noted queue emptied)) rfl rfl rfl

theorem nudges_clock (c : Connection σ) (now : Instant) (sweepers : Idle.Sweepers) :
    Nudges c { c with host := { c.host with now }, sweepers } :=
  nudges_of_eq rfl rfl rfl rfl rfl (fun ready => ready) rfl rfl rfl rfl

theorem nudges_dropWriter (c : Connection σ) : Nudges c c.dropWriter.1 := by
  let gone := { c.host with session := { c.host.session with outbox := none } }
  have going : Host.Firm [] c.host gone := Host.firm_of_eq rfl rfl (fun awake => awake) rfl
  exact nudges_of_tells ((going.tells rfl rfl rfl rfl fun mem => mem).trans
    (Host.tells_foldl_drop _ gone)) rfl rfl rfl

/-- Every command tells the driver of what is new to it. -/
theorem nudges_act (app : Application σ) (c : Connection σ) {x : Command}
    (atOnce : x.atOnce = true) : Nudges c (c.act app x).1 := by
  have sending (sends : x.sends = true) : Nudges c (c.act app x).1 := by
    obtain ⟨h, sent, acted⟩ := act_of_sends app c sends
    rw [acted]
    exact nudges_of_tells (Host.tells_of_sends sent) rfl rfl rfl
  have same : Nudges c c := nudges_refl c
  cases x with
  | send | close | sendMessage | handlerSend => exact sending rfl
  | demand n => exact nudges_of_tells (Host.tells_grant c.host n) rfl rfl rfl
  | takeDemand =>
    rcases takeDemand_cases app c with none | ⟨_, taken, took⟩
    · rw [none]
      exact same
    · rw [took]
      exact nudges_of_tells (Host.tells_take taken) rfl rfl rfl
  | waitForDemand =>
    exact nudges_of_eq rfl rfl rfl rfl rfl (fun ready => Host.mem_enqueue.mpr (.inl ready)) rfl rfl
      rfl rfl
  | abort e => exact nudges_of_tells (Host.tells_abort c.host e) rfl rfl rfl
  | setIdleTimeout _ | change _ | checkIdle | touch =>
    exact nudges_of_eq rfl rfl rfl rfl rfl (fun ready => ready) rfl rfl rfl rfl
  | write how =>
    rcases write_cases app c how with none | ⟨o, rest, -, wrote⟩
    · rw [none]
      exact same
    · rw [wrote]
      exact nudges_of_tells (Host.tells_resolve c.host _ _) rfl rfl rfl
  | dropWriter => exact nudges_dropWriter c
  | releaseHeld index how =>
    rcases releaseHeld_cases app c index how with none | ⟨t, -, resolved⟩
    · rw [none]
      exact same
    · let released := { c.host with held := c.host.held.eraseIdx index }
      have releasing : Host.Firm [] c.host released :=
        Host.firm_of_eq rfl rfl (fun awake => awake) rfl
      rw [resolved]
      exact nudges_of_tells ((releasing.tells rfl rfl rfl rfl fun mem => mem).trans
        (Host.tells_resolve released _ _)) rfl rfl rfl
  | start detached =>
    rcases start_cases app c detached with none | ⟨idle, started⟩
    · rw [none]
      exact same
    · rw [started]
      exact nudges_wake rfl rfl (fun asked => asked) rfl (.inr ⟨idle, rfl⟩)
  | arrive frames =>
    rcases arrive_cases app c frames with none | ⟨-, -, arrived⟩
    · rw [none]
      exact same
    · rw [arrived]
      exact nudges_wake rfl rfl (fun asked => asked) rfl (.inl rfl)
  | endInbound => exact nudges_wake rfl rfl (fun asked => asked) rfl (.inl rfl)
  | shutdown =>
    exact nudges_wake (k := { c.host with shutdown := true }) rfl rfl (fun _ => rfl) rfl (.inl rfl)
  | sweep => exact nudges_sweep c
  | startSweeping =>
    obtain ⟨tells, phase, stream⟩ := nudges_sweep c
    exact ⟨tells, phase, stream⟩
  | wait _ | handOpening | handFrame _ | handFailure _ | handClosed _ => cases atOnce

/-! ### The driver -/

/-- The driver is ready, or what it waits for is not there. -/
def Awake (c : Connection σ) : Prop :=
  .driver ∈ c.host.ready ∨ c.Lacks ∧ (c.phase = .reading true → .driver ∈ c.host.parked)

theorem awake_establish (supervised : Bool) (memory : σ) (handler : Handler) (id : ConnectionId)
    (config : Config) (interval : Duration) (house : House) :
    (establish supervised memory handler id config interval house).Awake := by
  unfold establish
  cases supervised <;> exact .inr ⟨trivial, nofun⟩

/-- A driver that waits for demand is parked, and then there is none. -/
theorem Lacks.same (lacks : c.Lacks) (parked : c.phase = .reading true → .driver ∈ c.host.parked)
    (same : Host.Same c.host d.host) (phase : d.phase = c.phase) (inbound : d.inbound = c.inbound)
    (ended : d.ended = c.ended) :
    d.Lacks ∧ (d.phase = .reading true → .driver ∈ d.host.parked) := by
  unfold Lacks at lacks ⊢
  rw [phase, same.verdict, same.signalled, inbound, ended]
  cases reading : c.phase with
  | idle | starting | opening | serving _ | finished _ =>
    rw [reading] at lacks
    exact ⟨lacks, nofun⟩
  | reading needsUnit =>
    rw [reading] at lacks
    cases needsUnit with
    | false => exact ⟨lacks, nofun⟩
    | true =>
      obtain ⟨mem, none⟩ := same.parked (parked reading) lacks.2
      exact ⟨⟨lacks.1, none⟩, fun _ => mem⟩

theorem Nudges.awake (nudges : Nudges c d) (awake : c.Awake) : d.Awake := by
  rcases awake with ready | ⟨lacks, parked⟩
  · exact .inl (nudges.tells.firm.awake ready)
  · rcases nudges.tells.told with ready | same
    · exact .inl ready
    · rcases nudges.stream with ready | ⟨phase, inbound, ended⟩
      · exact .inl ready
      · exact .inr (lacks.same parked same phase inbound ended)

/-- A waiter takes a unit only where there is one. -/
theorem tells_serve (h : Host σ) (n : Nat) : Host.Tells h (serve h n) := by
  unfold serve
  split
  · next session taken =>
    refine (Host.tells_take taken).trans ?_
    exact (Host.firm_note { h with session } (.served n)).tells rfl rfl rfl rfl fun mem => mem
  · have parked : Host.Firm [] h (h.park (.waiter n)) :=
      Host.firm_of_eq rfl rfl (fun ready => ready) rfl
    exact parked.tells rfl rfl rfl rfl fun mem => Host.mem_enqueue.mpr (.inl mem)

/-- The turn of a waiter. -/
theorem nudges_serve {n : Nat} {tasks : List Task} (queue : c.host.ready = .waiter n :: tasks) :
    Nudges c { c with host := serve { c.host with ready := tasks } n } := by
  have later : Host.Firm [] c.host { c.host with ready := tasks } := by
    refine Host.firm_of_eq rfl rfl (fun ready => ?_) rfl
    rw [queue] at ready
    exact (List.mem_cons.mp ready).resolve_left Task.noConfusion
  have shorter : Host.Tells c.host { c.host with ready := tasks } :=
    later.tells rfl rfl rfl rfl fun mem => mem
  exact nudges_of_tells (shorter.trans (tells_serve _ n)) rfl rfl rfl

/-- The driver gives way. -/
theorem nudges_yield (c : Connection σ) (patience : Nat) (tasks : List Task) :
    Nudges c { c with patience, host := { c.host with ready := tasks }.wake .driver } :=
  nudges_wake rfl rfl (fun asked => asked) rfl (.inl rfl)

theorem awake_step (awake : c.Awake) (stepped : c.step app = some d) : d.Awake := by
  cases pace_of_step stepped with
  | serves queue => exact (nudges_serve queue).awake awake
  | yields queue tired => exact (nudges_yield c _ _).awake awake
  | turns ready way =>
    obtain ⟨_, _, firm⟩ := way.firm
    exact .inl (firm.awake ready)
  | rests queue lacks =>
    refine .inr ?_
    unfold rest
    split
    · exact ⟨lacks, fun _ => Host.mem_enqueue.mpr (.inr rfl)⟩
    · next other => exact ⟨lacks, fun reading => (other reading).elim⟩

theorem awake_beat (awake : c.Awake) {b : Beat} (atOnce : b.atOnce = true) :
    (c.beat app b).Awake := by
  cases b with
  | act x => exact (nudges_act app c atOnce).awake awake
  | fetch => exact (nudges_fetch c).awake awake
  | clock now sweepers => exact awake
  | step =>
    rw [beat]
    cases stepped : c.step app with
    | none => exact awake
    | some d => exact awake_step awake stepped

theorem awake_beats (awake : c.Awake) {bs : List Beat} (atOnce : ∀ b ∈ bs, b.atOnce = true) :
    (beats app c bs).Awake := by
  induction bs generalizing c with
  | nil => exact awake
  | cons b bs ih =>
    exact ih (awake_beat awake (atOnce b List.mem_cons_self)) fun b mem =>
      atOnce b (List.mem_cons_of_mem _ mem)

/-! ### Tolls -/

theorem Nudges.pays (nudges : Nudges c d) :
    ∃ ts, Pays app c d ts ∧ Host.Bears ts c.host d.host := by
  refine ⟨[], ?_, nudges.tells.firm.toBears⟩
  rcases nudges.phase with same | ⟨idle, starting⟩
  · exact pays_of_same same
  · exact pays_of_early (.inl idle) (by rw [isReading, starting])

theorem pays_rest (c : Connection σ) (patience : Nat) (tasks : List Task) :
    let d := { c with patience, host := c.rest { c.host with ready := tasks } }
    ∃ ts, Pays app c d ts ∧ Host.Bears ts c.host d.host := by
  refine ⟨[], pays_of_same rfl, ?_⟩
  show Host.Bears [] c.host (c.rest _)
  unfold rest
  split <;> exact ⟨fun _ given => given, fun asked => asked, (List.append_nil _).symm⟩

/-- What every beat comes to. -/
theorem pays_beat (app : Application σ) (c : Connection σ) {b : Beat} (atOnce : b.atOnce = true) :
    ∃ ts, Pays app c (c.beat app b) ts ∧ Host.Bears ts c.host (c.beat app b).host := by
  cases b with
  | act x => exact (nudges_act app c atOnce).pays
  | fetch => exact (nudges_fetch c).pays
  | clock now sweepers => exact (nudges_clock c now sweepers).pays
  | step =>
    rw [beat]
    cases stepped : c.step app with
    | none => exact (nudges_refl c).pays
    | some d =>
      cases pace_of_step stepped with
      | serves queue => exact (nudges_serve queue).pays
      | yields queue tired => exact (nudges_yield c _ _).pays
      | rests queue lacks => exact pays_rest c _ _
      | turns ready way =>
        obtain ⟨ts, pays, firm⟩ := way.firm
        exact ⟨ts, pays, firm.toBears⟩

/-! ### Where nobody has anything to do -/

/-- Where nobody has anything to do, the driver lacks something. -/
theorem Awake.lacks (awake : c.Awake) (quiet : c.step app = none) : c.Lacks := by
  rcases awake with ready | ⟨lacks, -⟩
  · rw [ready_of_quiet quiet] at ready
    cases ready
  · exact lacks

/-- A driver that lacks something while it runs was not asked to end. -/
theorem Lacks.unsignalled (lacks : c.Lacks) (running : c.running = true) :
    c.host.signalled = false := by
  unfold Lacks at lacks
  unfold Connection.running at running
  cases phase : c.phase with
  | idle | finished _ =>
    rw [phase] at running
    cases running
  | starting =>
    rw [phase] at lacks
    exact lacks.elim
  | opening | serving f =>
    rw [phase] at lacks
    exact lacks.2
  | reading needsUnit =>
    rw [phase] at lacks
    cases needsUnit <;> exact lacks.1

end Connection

end WebSocketEngine
