import WebSocketEngine.Proofs.Connection.Fair
import WebSocketEngine.Proofs.Connection.Lifecycle

/-!
One unit of demand for each message, however its frames are cut.

Reading a frame takes a unit, and a frame that does not end a message gives it back; so only the
last frame of a message is paid for.  Every step of the driver keeps the balance (`steady_step`),
and where nobody is ready it says how many messages were delivered (`units_buy_messages`).
-/

namespace WebSocketEngine.Connection

open Assembly (Carries completes)

variable {σ : Type}

section Steady

variable {app : Application σ} {memory : σ} {messages : List Message} {frames came : List Frame}
  {given : Nat} {c d : Connection σ}

/-! ### The driver -/

/-- A callback is over at once: the driver goes on, and demand has changed by what the frame cost
    and bought. -/
theorem Steady.onward (steady : Steady app memory messages frames came given c) {k : Host σ}
    {back : Nat} (got : List Message) (earns : c.host.Earns app memory back k)
    (paid : back + got.length = c.phase.hold) (delivered : k.delivered = c.host.delivered ++ got)
    (held : k.held = c.host.held) (verdict : k.verdict = some (.ok ()))
    (attached : k.attached = true) (ready : .driver ∈ c.host.ready) {inbound : List Frame}
    (complete : c.inbound.countP completes = got.length + inbound.countP completes)
    (progress : ∃ a part rest future, k.handler = .assembling a ∧ a.Represents ⟨false, part⟩ ∧
      Carries part rest (inbound ++ future) ∧ k.delivered ++ rest = messages ∧
      came ++ future = frames)
    {phase : Phase} (callback : phase = .opening ∨ ∃ f, phase = .serving f ∧ f.closeCode = none) :
    Steady app memory messages frames came given { c with host := k, inbound, phase } := by
  obtain ⟨n, granted, grows⟩ := earns
  have free : phase.hold = 0 := by
    rcases callback with rfl | ⟨f, rfl, _⟩ <;> rfl
  have counted : k.delivered.length = c.host.delivered.length + got.length := by
    rw [delivered, List.length_append]
  refine ⟨⟨steady.fair.unended, steady.fair.unswept, grows.tidy.ready,
    grows.tidy.parked, held.trans steady.fair.held, progress, ?_, ?_, ?_⟩, grows.tidy.outbox,
    steady.fetched⟩
  · have before : came.countP completes = c.host.delivered.length + c.inbound.countP completes :=
      steady.fair.complete
    show came.countP completes = k.delivered.length + inbound.countP completes
    omega
  · intro bound
    have room : given + app.grants memory k.calls < UInt64.size := bound
    have before := steady.balance (by omega)
    have grown := grows.demand (by omega)
    show k.session.demand.toNat + phase.hold + k.delivered.length =
      given + app.grants memory k.calls
    omega
  · have awake := grows.ready ready
    rcases callback with rfl | ⟨f, rfl, going⟩
    · exact ⟨attached, verdict, awake⟩
    · exact ⟨going, attached, verdict, awake⟩

/-- The opening of the handler, from a host `h` that differs in nothing that matters. -/
theorem steady_opened (calm : app.Calm) (steady : Steady app memory messages frames came given c)
    (starting : c.phase = .starting) (recalled : c.host.memory = app.recollect memory c.host.calls)
    {h : Host σ} (begun : Host.Grows 0 c.host h) (same : h.calls = c.host.calls)
    (remembered : h.memory = c.host.memory) (handled : h.handler = c.host.handler)
    (keeping : h.held = c.host.held) :
    Steady app memory messages frames came given
      { c with host := (h.opened app (.root (.driver h.callbacks))).1, phase := .opening } := by
  obtain ⟨a, part, rest, future, handler, rep, carried, whole, all⟩ := steady.fair.progress
  have ready : Task.driver ∈ c.host.ready := by
    have waits := steady.waits
    rwa [starting] at waits
  have assembling : h.handler = .assembling a := handled.trans handler
  have earns := (begun.earns same).before (Host.earns_opened calm begun.tidy
    (by rw [remembered, same, recalled]) assembling (.root (.driver h.callbacks)))
  obtain ⟨attending, verdict, held, calls⟩ := Host.front_opened calm assembling rfl
  generalize (h.opened app (.root (.driver h.callbacks))).1 = k
    at earns attending verdict held calls
  have delivered : k.delivered = c.host.delivered := by
    have opening :
        (if app.hooks.onOpen then [Call.opened] else []).filterMap Call.message? = [] := by
      cases app.hooks.onOpen <;> rfl
    rw [Host.delivered, calls, List.filterMap_append, opening, same, List.append_nil]
    rfl
  have attached : k.attached = true := by
    rw [Host.attached, attending]
    rfl
  exact steady.onward [] earns (by rw [starting]; rfl) (by rw [delivered, List.append_nil])
    (held.trans keeping) verdict attached ready (Nat.zero_add _).symm
    ⟨_, part, rest, future, attending, ⟨rfl, rep.part⟩, carried, by rw [delivered]; exact whole,
      all⟩
    (.inl rfl)

theorem steady_enter (calm : app.Calm) (steady : Steady app memory messages frames came given c)
    (starting : c.phase = .starting)
    (recalled : c.host.memory = app.recollect memory c.host.calls) :
    Steady app memory messages frames came given (c.enter app) := by
  unfold enter
  dsimp only
  rw [unlessCrashed_of_none (Host.opened_crash calm _ _)]
  have same : ∀ h : Host σ, ∀ l, (h.log l).calls = h.calls :=
    fun h _ => (Host.record_note _ h _).trans (List.append_nil _)
  exact steady_opened calm steady starting recalled (steady.tidy.same rfl rfl rfl rfl)
    (same _ (openedLine c.id (c.host.house.running + 1))) rfl rfl rfl

theorem steady_dispatch (prompt : app.Prompt)
    (steady : Steady app memory messages frames came given c)
    (undisturbed : Undisturbed app messages c)
    (reading : c.phase = .reading false) (ready : .driver ∈ c.host.ready)
    (recalled : c.host.memory = app.recollect memory c.host.calls) {f : Frame} {fs : List Frame}
    (next : c.inbound = f :: fs)
    (after : Undisturbed app messages ({ c with inbound := fs }.dispatch app f)) :
    Steady app memory messages frames came given ({ c with inbound := fs }.dispatch app f) := by
  obtain ⟨a, part, rest, future, handler, rep, carried, whole, all⟩ := steady.fair.progress
  have attached : c.host.attached = true := by
    have waits := steady.waits
    rw [reading] at waits
    exact waits.1
  let h := c.host.touch.count .inbound
  have begun : Host.Grows 0 c.host h := steady.tidy.same rfl rfl rfl rfl
  have dispatched : { c with inbound := fs }.dispatch app f =
      { c with inbound := fs, host := (Assembly.hand app h ⟨[], f⟩).1, phase := .serving f } := by
    unfold dispatch
    dsimp only
    rw [unlessCrashed_of_none (Host.frame_crash prompt.calm _ f _)]
    rfl
  rw [dispatched] at after ⊢
  have pending : Carries part rest (f :: (fs ++ future)) := by
    have carried : Carries part rest (c.inbound ++ future) := carried
    rwa [next] at carried
  obtain ⟨got, rest', split, handed⟩ := Assembly.handed_of_carries (h := h) prompt begun.tidy
    recalled attached handler rep pending
    (fun m mem => undisturbed.acceptable m (whole ▸ List.mem_append_right _ mem)) after.demanding
  obtain ⟨a', part', handler', rep', carried'⟩ := handed.onward
  obtain ⟨back, paid, earns⟩ := handed.earns
  refine steady.onward got (begun.earns rfl |>.before earns) (by rw [reading]; exact paid)
    handed.delivered handed.held handed.verdict (handed.attached.trans attached) ready ?_
    ⟨a', part', rest', future, handler', rep', carried', ?_, all⟩ (.inr ⟨f, rfl, handed.going⟩)
  · rw [next, handed.completes, List.countP_cons, List.countP_singleton, Nat.add_comm]
  · rw [handed.delivered, List.append_assoc, ← split]
    exact whole

theorem await_of_ok {next : Connection σ → Connection σ}
    (verdict : c.host.verdict = some (.ok ())) :
    c.await app next = some (next { c with patience := c.patience - 1 }) := by
  simp only [await, awaited, verdict]

/-- The next read begins without a unit. -/
theorem steady_read (steady : Steady app memory messages frames came given c)
    (undisturbed : Undisturbed app messages c) (free : c.phase.hold = 0)
    (attached : c.host.attached = true) (ready : .driver ∈ c.host.ready) :
    Steady app memory messages frames came given (c.read app) := by
  obtain ⟨a, _, _, _, handler, _⟩ := steady.fair.progress
  have asks : c.host.demanding app = true := by
    have assembling : c.host.handler = .assembling a := handler
    rw [Host.demanding, assembling]
    exact undisturbed.demanding
  refine ⟨{ steady.fair with balance := ?_, waits := ?_ }, steady.outbox, steady.fetched⟩
  · intro bound
    have before := steady.balance bound
    rw [free] at before
    show c.host.session.demand.toNat + (Phase.reading (c.host.demanding app)).hold +
      c.host.delivered.length = given + app.grants memory c.host.calls
    rw [asks]
    exact before
  · show Waits c.host.desk c.inbound (.reading (c.host.demanding app))
    rw [asks]
    exact ⟨attached, .inl ready⟩

theorem steady_take (steady : Steady app memory messages frames came given c)
    (reading : c.phase = .reading true) (ready : .driver ∈ c.host.ready) {session : Session}
    (taken : c.host.session.take? = some session) :
    Steady app memory messages frames came given
      { c with host := { c.host with session }.note .took, phase := .reading false } := by
  obtain ⟨-, rfl⟩ := Session.eq_of_take? taken
  let paid := { c.host.session with demand := c.host.session.demand - 1 }
  let k := { c.host with session := paid }.note .took
  have calls : k.calls = c.host.calls := (Host.record_note _ c.host _).trans (List.append_nil _)
  have desk : k.desk = { c.host.desk with demand := c.host.session.demand - 1 } := by
    rw [Host.desk, calls]
    rfl
  have waits := steady.waits
  rw [reading] at waits
  have fair : Fair app memory messages frames came given
      { c.view with
        phase := .reading false
        desk := { c.host.desk with demand := c.host.session.demand - 1 } } := by
    refine { steady.fair with balance := fun bound => ?_, waits := ⟨waits.1, .inl ready⟩ }
    have before := steady.balance bound
    have less : (c.host.session.demand - 1).toNat + 1 = c.host.session.demand.toNat :=
      Session.demand_of_take? taken
    rw [reading] at before
    show (c.host.session.demand - 1).toNat + 1 + c.host.delivered.length =
      given + app.grants memory c.host.calls
    have free : (Phase.reading true).hold = 0 := rfl
    omega
  refine ⟨?_, steady.outbox, steady.fetched⟩
  unfold view
  dsimp only
  rw [desk]
  exact fair

theorem steady_receive (prompt : app.Prompt)
    (steady : Steady app memory messages frames came given c)
    (undisturbed : Undisturbed app messages c)
    (after : Undisturbed app messages d) {needsUnit : Bool} (reading : c.phase = .reading needsUnit)
    (ready : .driver ∈ c.host.ready) (recalled : c.host.memory = app.recollect memory c.host.calls)
    (turned : c.receive app needsUnit = some d) :
    Steady app memory messages frames came given d := by
  unfold receive at turned
  rw [undisturbed.going, undisturbed.unaborted] at turned
  simp only [Bool.false_eq_true, if_false] at turned
  cases needsUnit with
  | true =>
    obtain ⟨session, taken, rfl⟩ := Option.map_eq_some_iff.mp turned
    exact steady_take steady reading ready taken
  | false =>
    simp only [Bool.false_eq_true, if_false] at turned
    split at turned
    · next f fs next =>
      cases turned
      exact steady_dispatch prompt steady undisturbed reading ready recalled next after
    · have unended : c.ended = false := steady.fair.unended
      rw [unended] at turned
      cases turned

theorem steady_turn (prompt : app.Prompt)
    (steady : Steady app memory messages frames came given c)
    (undisturbed : Undisturbed app messages c)
    (after : Undisturbed app messages d) (ready : .driver ∈ c.host.ready)
    (recalled : c.host.memory = app.recollect memory c.host.calls) (turned : c.turn app = some d) :
    Steady app memory messages frames came given d := by
  have waits := steady.waits
  unfold turn at turned
  split at turned
  · cases turned
  · cases turned
  · next starting =>
    cases turned
    exact steady_enter prompt.calm steady starting recalled
  · next opening =>
    rw [opening] at waits
    have verdict : c.host.verdict = some (.ok ()) := waits.2.1
    rw [await_of_ok verdict] at turned
    cases turned
    exact steady_read (c := { c with patience := c.patience - 1 })
      ⟨steady.fair, steady.outbox, steady.fetched⟩
      ⟨undisturbed.demanding, undisturbed.acceptable, undisturbed.unaborted, undisturbed.going⟩
      (congrArg Phase.hold opening) waits.1 ready
  · next f serving =>
    rw [serving] at waits
    have verdict : c.host.verdict = some (.ok ()) := waits.2.2.1
    have going : f.closeCode = none := waits.1
    rw [await_of_ok verdict] at turned
    simp only [conclude, going] at turned
    cases turned
    have sends := sends_sendPong c.host f
    have desk := Host.desk_of_sends sends
    refine steady_read (steady.same ?_ (sends.tidy steady.tidy) steady.fetched) ?_
      (congrArg Phase.hold serving) ?_ ?_
    · unfold view
      dsimp only
      rw [desk]
    · exact ⟨after.demanding, after.acceptable, after.unaborted, after.going⟩
    · exact (congrArg Host.Desk.attached desk).trans waits.2.1
    · have same : (sendPong c.host f).ready = c.host.ready := congrArg Host.Desk.ready desk
      exact same ▸ ready
  · next needsUnit reading =>
    exact steady_receive prompt steady undisturbed after reading ready recalled turned

/-- Only the tasks have changed. -/
theorem Steady.tasks (steady : Steady app memory messages frames came given c) {k : Host σ}
    (desk : k.desk = { c.host.desk with ready := k.ready, parked := k.parked })
    (outbox : k.session.outbox = c.host.session.outbox) (ready : ∀ t ∈ k.ready, t = .driver)
    (parked : ∀ t ∈ k.parked, t = .driver) (waits : Waits k.desk c.inbound c.phase) :
    Steady app memory messages frames came given
      { c with host := k, patience := Completion.fullPatience } := by
  have fair : Fair app memory messages frames came given { c.view with desk := k.desk } := by
    rw [desk] at waits ⊢
    exact { steady.fair with ready := ready, parked := parked, waits := waits }
  exact ⟨fair, outbox ▸ steady.outbox, steady.fetched⟩

/-- A driver that cannot go on waits for what is not there, wherever it stands among the tasks. -/
theorem waits_of_stuck (waits : Waits c.host.desk c.inbound c.phase)
    (stuck : c.turn app = none) {desk : Host.Desk} (attached : desk.attached = c.host.attached)
    (demand : desk.demand = c.host.session.demand)
    (parked : c.phase = .reading true → .driver ∈ desk.parked) :
    Waits desk c.inbound c.phase := by
  unfold turn at stuck
  split at stuck
  · next idle =>
    rw [idle]
    trivial
  · next e gone =>
    rw [gone] at waits
    exact waits.elim
  · cases stuck
  · next opening =>
    rw [opening] at waits
    have verdict : c.host.verdict = some (.ok ()) := waits.2.1
    rw [await_of_ok verdict] at stuck
    cases stuck
  · next f serving =>
    rw [serving] at waits
    have verdict : c.host.verdict = some (.ok ()) := waits.2.2.1
    rw [await_of_ok verdict] at stuck
    cases stuck
  · next needsUnit reading =>
    rw [reading] at waits parked ⊢
    unfold receive at stuck
    split at stuck
    · cases stuck
    · split at stuck
      · cases stuck
      · cases needsUnit with
        | true =>
          have none : c.host.session.take? = none := Option.map_eq_none_iff.mp stuck
          have empty : c.host.session.demand = 0 := by
            unfold Session.take? at none
            split at none
            · next zero => exact zero
            · cases none
          exact ⟨attached.trans waits.1, .inr ⟨parked rfl, demand.trans empty⟩⟩
        | false =>
          simp only [Bool.false_eq_true, if_false] at stuck
          split at stuck
          · cases stuck
          · next none => exact ⟨attached.trans waits.1, .inr none⟩

theorem steady_step (prompt : app.Prompt)
    (steady : Steady app memory messages frames came given c)
    (undisturbed : Undisturbed app messages c)
    (after : Undisturbed app messages d)
    (recalled : c.host.memory = app.recollect memory c.host.calls)
    (stepped : c.step app = some d) : Steady app memory messages frames came given d := by
  have drivers : ∀ t ∈ c.host.ready, t = .driver := steady.fair.ready
  unfold step at stepped
  split at stepped
  · cases stepped
  · next n tasks queue => exact nomatch drivers (.waiter n) (by simp [queue])
  · next tasks queue =>
    have ready : Task.driver ∈ c.host.ready := by simp [queue]
    have others : ∀ t ∈ tasks, t = .driver := fun t mem => drivers t (by simp [queue, mem])
    split at stepped
    · cases stepped
      have woken : Task.driver ∈ Host.enqueue tasks .driver := Host.mem_enqueue.mpr (.inr rfl)
      have waits : Waits ({ c.host with ready := tasks }.wake .driver).desk c.inbound c.phase :=
        steady.waits.awake rfl rfl woken
      exact steady.tasks rfl rfl
        (fun t mem => (Host.mem_enqueue.mp mem).elim (others t) fun same => same)
        steady.fair.parked waits
    · split at stepped
      · next turned =>
        cases stepped
        exact steady_turn prompt steady undisturbed after ready recalled turned
      · next stuck =>
        cases stepped
        have waits {desk : Host.Desk} (attached : desk.attached = c.host.attached)
            (demand : desk.demand = c.host.session.demand)
            (parked : c.phase = .reading true → .driver ∈ desk.parked) :
            Waits desk c.inbound c.phase :=
          waits_of_stuck steady.waits stuck attached demand parked
        unfold rest
        split
        · have parked : Task.driver ∈ Host.enqueue c.host.parked .driver :=
            Host.mem_enqueue.mpr (.inr rfl)
          exact steady.tasks rfl rfl others
            (fun t mem => (Host.mem_enqueue.mp mem).elim (steady.fair.parked t) fun same => same)
            (waits rfl rfl fun _ => parked)
        · next elsewhere =>
          exact steady.tasks rfl rfl others steady.fair.parked
            (waits rfl rfl fun reading => (elsewhere reading).elim)

/-- Where nobody is ready, all that was paid for and has arrived was delivered. -/
theorem Steady.delivered (steady : Steady app memory messages frames came given c)
    (started : c.phase ≠ .idle) (quiet : c.step app = none)
    (room : given + app.grants memory c.host.calls < UInt64.size) :
    c.host.delivered = messages.take
      (min (given + app.grants memory c.host.calls) (came.countP completes)) := by
  obtain ⟨_, _, rest, _, _, _, _, whole, _⟩ := steady.fair.progress
  have begun : c.host.delivered ++ rest = messages := whole
  have balance := steady.balance room
  have complete : came.countP completes =
      c.host.delivered.length + c.inbound.countP completes := steady.fair.complete
  have waits := steady.waits
  have idle : Task.driver ∉ c.host.ready := by
    rw [ready_of_quiet quiet]
    exact List.not_mem_nil
  have count : min (given + app.grants memory c.host.calls) (came.countP completes) =
      c.host.delivered.length := by
    cases phase : c.phase with
    | idle => exact (started phase).elim
    | starting => rw [phase] at waits; exact (idle waits).elim
    | opening => rw [phase] at waits; exact (idle waits.2.2).elim
    | serving f => rw [phase] at waits; exact (idle waits.2.2.2).elim
    | finished e => rw [phase] at waits; exact waits.elim
    | reading needsUnit =>
      rw [phase] at waits balance
      cases needsUnit with
      | true =>
        -- No demand is left: everything that was paid for has been delivered.
        obtain ⟨_, empty⟩ := waits.2.resolve_left idle
        have zero : c.host.session.demand.toNat = 0 := by
          have empty : c.host.session.demand = 0 := empty
          rw [empty]
          rfl
        have free : (Phase.reading true).hold = 0 := rfl
        omega
      | false =>
        -- No frame is left: everything that has arrived has been delivered.
        have empty : c.inbound = [] := waits.2.resolve_left idle
        rw [empty, List.countP_nil] at complete
        have held : (Phase.reading false).hold = 1 := rfl
        omega
  rw [count, ← begun, List.take_left]

end Steady

/-! ### Every schedule -/

/-- The frames that have arrived in a schedule. -/
def arrived (ms : List Move) : List Frame := (commands ms).flatMap Command.arrivals

/-- The units that were granted from outside in a schedule. -/
def granted (ms : List Move) : Nat := ((commands ms).map Command.granted).sum

theorem arrived_append (ms ns : List Move) : arrived (ms ++ ns) = arrived ms ++ arrived ns := by
  rw [arrived, commands_append, List.flatMap_append]
  rfl

theorem granted_append (ms ns : List Move) : granted (ms ++ ns) = granted ms + granted ns := by
  rw [granted, commands_append, List.map_append, List.sum_append]
  rfl

theorem outside_of_aside {x : Command} (aside : x.aside = true) : x.atHandler = false := by
  cases x <;> first | rfl | cases aside

section Play

variable {app : Application σ} {memory : σ} {messages : List Message} {frames : List Frame}

theorem steady_establish (carried : Carries none messages frames) (supervised : Bool)
    (id : ConnectionId) (config : Config) (interval : Duration) (house : House) :
    Steady app memory messages frames [] 0
      (establish supervised memory (.assembling .fresh) id config interval house) := by
  have nobody (t : Task) (mem : t ∈ ([] : List Task)) : t = .driver := (List.not_mem_nil mem).elim
  have outbox (queue : List Outbound) (eq : some [] = some queue) (o : Outbound) (mem : o ∈ queue) :
      o.ticket.sink.Outside := by
    obtain rfl : [] = queue := Option.some.inj eq
    cases mem
  have first : Steady app memory messages frames [] 0
      (create memory (.assembling .fresh) id config interval house) :=
    ⟨⟨rfl, rfl, nobody, nobody, rfl,
      ⟨.fresh, none, messages, frames, rfl, ⟨rfl, .none⟩, carried, rfl, rfl⟩,
      rfl, fun _ => rfl, trivial⟩, outbox, fun o mem => (List.not_mem_nil mem).elim⟩
  unfold establish
  cases supervised with
  | false => exact first
  | true => exact ⟨first.fair, first.outbox, first.fetched⟩

theorem steady_play (prompt : app.Prompt) (carried : Carries none messages frames)
    (supervised : Bool) (id : ConnectionId) (config : Config) (interval : Duration)
    (house : House) {ms : List Move}
    (coming : arrived ms <+: frames) (aside : ∀ x ∈ commands ms, x.aside = true)
    (undisturbed : ∀ past, past <+: ms → Undisturbed app messages
      (play app (establish supervised memory (.assembling .fresh) id config interval house) past)) :
    Steady app memory messages frames (arrived ms) (granted ms) (play app
      (establish supervised memory (.assembling .fresh) id config interval house) ms) := by
  refine play_past (I := fun past c => Steady app memory messages frames (arrived past)
    (granted past) c) (steady_establish carried supervised id config interval house) ?_
  intro past m taken steady
  have early : past <+: ms := (List.prefix_append past [m]).trans taken
  have before := undisturbed past early
  have after := undisturbed (past ++ [m]) taken
  rw [play_concat] at after
  have known : ∀ x ∈ commands past, x.atHandler = false := fun x mem =>
    outside_of_aside (aside x (mem_commands.mpr (early.subset (mem_commands.mp mem))))
  have recalled := (atStage_play prompt.calm supervised memory (.assembling .fresh) id config
    interval house known).recalled
  have reached : arrived (past ++ [m]) <+: frames := by
    obtain ⟨later, rfl⟩ := taken
    rw [arrived_append] at coming
    exact (List.prefix_append _ _).trans coming
  rw [arrived_append] at reached ⊢
  rw [granted_append]
  cases m with
  | act x =>
    have came : arrived [.act x] = x.arrivals := List.append_nil _
    rw [came] at reached ⊢
    exact steady_act steady (aside x (mem_commands.mpr (taken.subset (by simp)))) reached after
  | fetch =>
    have nothing : arrived past ++ arrived [.fetch] = arrived past := List.append_nil _
    rw [nothing]
    exact steady_fetch steady
  | step =>
    have nothing : arrived past ++ arrived [.step] = arrived past := List.append_nil _
    rw [nothing]
    rw [move] at after ⊢
    cases stepped : (play app
        (establish supervised memory (.assembling .fresh) id config interval house)
        past).step app with
    | none => exact steady
    | some d =>
      rw [stepped] at after
      exact steady_step prompt steady before after recalled stepped

end Play

/-- An application that is demanding throughout was granted `n` units, from outside or by itself;
    frames that carry messages have arrived, however they are cut, the last frames of `k` messages
    among them.  At every moment demand, the unit that a read holds and the messages delivered make
    up `n`, and whenever nobody is ready the first `min n k` messages have been delivered. -/
theorem units_buy_messages (app : Application σ) (prompt : app.Prompt) (supervised : Bool)
    (memory : σ) (id : ConnectionId) (config : Config) (interval : Duration) (house : House)
    (messages : List Message) (frames : List Frame) (carried : Carries none messages frames)
    (ms : List Move) (coming : arrived ms <+: frames) (aside : ∀ x ∈ commands ms, x.aside = true)
    (undisturbed : ∀ past, past <+: ms → Undisturbed app messages
      (play app (establish supervised memory (.assembling .fresh) id config interval house) past))
    (n : Nat) (total : n = granted ms + app.grants memory (play app
      (establish supervised memory (.assembling .fresh) id config interval house) ms).host.calls)
    (room : n < UInt64.size) :
    let c := play app (establish supervised memory (.assembling .fresh) id config interval house) ms
    c.host.session.demand.toNat + c.phase.hold + c.host.delivered.length = n ∧
      (c.phase ≠ .idle → c.step app = none →
        c.host.delivered = messages.take (min n ((arrived ms).countP completes))) := by
  have steady :=
    steady_play prompt carried supervised id config interval house coming aside undisturbed
  subst total
  exact ⟨steady.balance room, fun started quiet => steady.delivered started quiet room⟩

/-- One message in two frames with a PING between them, for one unit. -/
theorem units_buy_messages_split :
    let app : Application Unit :=
      ⟨{ Hooks.none with onBinary := true }, fun s _ => (s, ⟨[], .succeed⟩), fun _ => false⟩
    let ms : List Move :=
      [.act (.start false), .act (.demand 1),
        .act (.arrive [⟨.binary, false, [1]⟩, .ping [], ⟨.continuation, true, [2]⟩])] ++
        List.replicate 12 .step
    let c := play app (establish false () (.assembling .fresh) ⟨1⟩ ⟨0, 0, 0, true⟩ .zero .empty) ms
    c.host.session.demand.toNat + c.phase.hold + c.host.delivered.length = 1 ∧
      (c.phase ≠ .idle → c.step app = none →
        c.host.delivered =
          [Message.binary [1, 2]].take (min 1 ((arrived ms).countP completes))) := by
  intro app ms
  have carried : Carries none [.binary [1, 2]]
      [⟨.binary, false, [1]⟩, .ping [], ⟨.continuation, true, [2]⟩] :=
    .first .binary [1] (.control (.inl rfl) (.last (.binary [1, 2]) [2] rfl .done))
  have settings : ∀ n < 16,
      (play app (establish false () (.assembling .fresh) ⟨1⟩ ⟨0, 0, 0, true⟩ .zero .empty)
        (ms.take n)).host.session.config = ⟨0, 0, 0, true⟩ ∧
      (play app (establish false () (.assembling .fresh) ⟨1⟩ ⟨0, 0, 0, true⟩ .zero .empty)
        (ms.take n)).host.session.abortReason.isNone = true ∧
      (play app (establish false () (.assembling .fresh) ⟨1⟩ ⟨0, 0, 0, true⟩ .zero .empty)
        (ms.take n)).host.shutdown = false := by
    decide +kernel
  refine units_buy_messages app ⟨fun _ _ _ => Reply.noConfusion, fun _ _ => rfl⟩ false () ⟨1⟩
    ⟨0, 0, 0, true⟩ .zero .empty [.binary [1, 2]] _ carried ms (List.prefix_refl _) ?_ ?_ 1
    (by decide +kernel) (by decide)
  · decide
  · intro past early
    obtain ⟨config, unaborted, going⟩ := settings past.length (Nat.lt_succ_of_le early.length_le)
    rw [← List.prefix_iff_eq_take.mp early] at config unaborted going
    refine ⟨congrArg Config.demanding config, ?_, Option.isNone_iff_eq_none.mp unaborted, going⟩
    rw [config]
    intro m mem
    obtain rfl := List.mem_singleton.mp mem
    exact ⟨rfl, fun l none => nomatch none⟩

end WebSocketEngine.Connection
