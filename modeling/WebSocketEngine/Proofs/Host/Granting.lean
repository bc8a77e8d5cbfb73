import WebSocketEngine.Proofs.Assembly.Delivery
import WebSocketEngine.Proofs.Host.Account
import Mathlib.Algebra.GroupWithZero.Nat

/-!
Demand of a host whose only task is its driver.

`Grows` is what happens to demand and to the driver's place among the tasks while the driver has its
turn: units are granted, and the driver stays ready.  `Earns` compares the units with the
application's own deeds; what is left over is what an assembler gives back (`earns_settleFrame`).
-/

namespace WebSocketEngine

variable {σ : Type}

/-- The units that an application grants in some calls. -/
def Application.grants (app : Application σ) (memory : σ) (calls : List Call) : Nat :=
  ((app.deeds memory calls).map (·.grant.toNat)).sum

theorem Application.grants_concat (app : Application σ) (memory : σ) (calls : List Call)
    (c : Call) :
    app.grants memory (calls ++ [c]) = app.grants memory calls +
      ((app.react (app.recollect memory calls) c).2.acts.map (·.grant.toNat)).sum := by
  rw [grants, deeds_concat, List.map_append, List.sum_append]
  rfl

/-- The units that are given back after a frame. -/
def Assembly.Ruling.back : Assembly.Ruling → Nat
  | .pass | .keep => 1
  | .close | .deliver _ | .refuse _ | .malformed => 0

namespace Host

/-! ### Tasks -/

theorem mem_enqueue {queue : List Task} {t u : Task} : u ∈ enqueue queue t ↔ u ∈ queue ∨ u = t := by
  unfold enqueue
  split
  · next mem =>
    refine ⟨.inl, ?_⟩
    rintro (old | rfl)
    · exact old
    · exact mem
  · rw [List.mem_append, List.mem_singleton]

theorem mem_foldl_enqueue {queue ts : List Task} {u : Task} :
    u ∈ ts.foldl enqueue queue ↔ u ∈ queue ∨ u ∈ ts := by
  induction ts generalizing queue with
  | nil => simp
  | cons t ts ih => rw [List.foldl_cons, ih, mem_enqueue, List.mem_cons, or_assoc]

/-- Nobody but the driver has turns, and no token of the driver waits for the writer. -/
structure Tidy (h : Host σ) : Prop where
  ready : ∀ t ∈ h.ready, t = .driver
  parked : ∀ t ∈ h.parked, t = .driver
  outbox : ∀ queue, h.session.outbox = some queue → ∀ o ∈ queue, o.ticket.sink.Outside

theorem Tidy.wake {h : Host σ} (tidy : h.Tidy) : (h.wake .driver).Tidy := by
  refine ⟨fun t mem => ?_, tidy.parked, tidy.outbox⟩
  rcases mem_enqueue.mp mem with old | new
  · exact tidy.ready t old
  · exact new

theorem Tidy.grant {h : Host σ} (tidy : h.Tidy) (n : UInt64) : (h.grant n).Tidy := by
  refine ⟨fun t mem => ?_, fun t mem => (List.not_mem_nil mem).elim, tidy.outbox⟩
  rcases mem_foldl_enqueue.mp mem with old | new
  · exact tidy.ready t old
  · exact tidy.parked t new

theorem Sends.tidy {P : Frame → Prop} {h k : Host σ} (sends : Sends P h k) (tidy : h.Tidy) :
    k.Tidy := by
  induction sends with
  | refl => exact tidy
  | book _ _ ih => exact ⟨ih.ready, ih.parked, ih.outbox⟩
  | settle _ _ _ ih => exact ⟨ih.ready, ih.parked, ih.outbox⟩
  | @accept k out queue _ _ writer _ outside ih =>
    refine ⟨ih.ready, ih.parked, fun after eq o mem => ?_⟩
    obtain rfl : queue ++ [out] = after := Option.some.inj eq
    rcases List.mem_append.mp mem with old | new
    · exact ih.outbox queue writer o old
    · rw [List.mem_singleton.mp new]
      exact outside
  | lose _ _ _ _ ih => exact ⟨ih.ready, ih.parked, ih.outbox⟩

/-! ### Growth -/

/-- From a tidy host to another one, with `n` more units of demand unless they wrap. -/
structure Grows (n : Nat) (h k : Host σ) : Prop where
  tidy : k.Tidy
  ready : .driver ∈ h.ready → .driver ∈ k.ready
  demand : h.session.demand.toNat + n < UInt64.size →
    k.session.demand.toNat = h.session.demand.toNat + n

theorem Grows.trans {m n : Nat} {h k l : Host σ} (first : Grows m h k) (second : Grows n k l) :
    Grows (m + n) h l := by
  refine ⟨second.tidy, fun mem => second.ready (first.ready mem), fun bound => ?_⟩
  have reached := first.demand (by omega)
  rw [second.demand (by omega), reached, Nat.add_assoc]

theorem Tidy.stay {h : Host σ} (tidy : h.Tidy) : Grows 0 h h := ⟨tidy, id, fun _ => rfl⟩

theorem Grows.quietly {n : Nat} {h k l : Host σ} (first : Grows n h k) (second : Grows 0 k l) :
    Grows n h l :=
  first.trans second

/-- Whatever keeps to tasks, outbox and demand is no growth. -/
theorem Tidy.same {h k : Host σ} (tidy : h.Tidy) (ready : k.ready = h.ready)
    (parked : k.parked = h.parked) (outbox : k.session.outbox = h.session.outbox)
    (demand : k.session.demand = h.session.demand) : Grows 0 h k :=
  ⟨⟨by rw [ready]; exact tidy.ready, by rw [parked]; exact tidy.parked,
    by rw [outbox]; exact tidy.outbox⟩, by rw [ready]; exact id, fun _ => by rw [demand]; rfl⟩

theorem Grows.before {n : Nat} {h k l : Host σ} (first : Grows 0 h k) (second : Grows n k l) :
    Grows n h l := by
  have both := first.trans second
  rwa [Nat.zero_add] at both

theorem grows_wake {h : Host σ} (tidy : h.Tidy) : Grows 0 h (h.wake .driver) :=
  ⟨tidy.wake, fun mem => mem_enqueue.mpr (.inl mem), fun _ => rfl⟩

theorem grows_of_sends {P : Frame → Prop} {h k : Host σ} (tidy : h.Tidy) (sends : Sends P h k) :
    Grows 0 h k := by
  have ready : k.ready = h.ready := congrArg (·.ready) sends.still
  refine ⟨sends.tidy tidy, fun mem => ready ▸ mem, fun _ => ?_⟩
  rw [sends.demand]
  rfl

theorem grows_grant {h : Host σ} (tidy : h.Tidy) (n : UInt64) : Grows n.toNat h (h.grant n) := by
  refine ⟨tidy.grant n, fun mem => mem_foldl_enqueue.mpr (.inl mem), fun bound => ?_⟩
  exact (UInt64.toNat_add _ _).trans (Nat.mod_eq_of_lt bound)

theorem grows_abort {h : Host σ} (tidy : h.Tidy) (e : Failure) : Grows 0 h (h.abort e) := by
  rcases abort_cases h e with same | ⟨_, aborted⟩
  · rw [same]
    exact tidy.stay
  · rw [aborted]
    have reasoned : Grows 0 h { h.log (abortedLine h.session.id e) with
        session := { h.session with abortReason := some e } } := tidy.same rfl rfl rfl rfl
    exact reasoned.before (grows_wake reasoned.tidy)

theorem grows_deliver {h : Host σ} (tidy : h.Tidy) (d : Option (Completion.Delivery Sink)) :
    Grows 0 h (h.deliver d) := by
  unfold deliver
  split
  · exact tidy.stay
  · exact tidy.stay
  · exact tidy.same rfl rfl rfl rfl
  · next n o =>
    split
    · have decided : Grows 0 h { h with verdict := some o } := tidy.same rfl rfl rfl rfl
      exact decided.before (grows_wake decided.tidy)
    · exact tidy.stay

theorem grows_resolve {h : Host σ} (tidy : h.Tidy) (t : Ticket) (o : Outcome) :
    Grows 0 h (h.resolve t o) := by
  have booked : Grows 0 h { h with ledger := (h.ledger.resolve t o).1 } :=
    tidy.same rfl rfl rfl rfl
  exact booked.before (grows_deliver booked.tidy _)

theorem grows_foldl_log {h : Host σ} (tidy : h.Tidy) (lines : List Log.Line) :
    Grows 0 h (lines.foldl log h) := by
  induction lines generalizing h with
  | nil => exact tidy.stay
  | cons l lines ih =>
    have logged : Grows 0 h (h.log l) := tidy.same rfl rfl rfl rfl
    exact logged.before (ih logged.tidy)

theorem grows_perform {h : Host σ} (tidy : h.Tidy) (x : Act) :
    Grows x.grant.toNat h (h.perform x) := by
  cases x with
  | demand n => exact grows_grant tidy n
  | change c => exact tidy.same rfl rfl rfl rfl
  | setIdleTimeout d => exact tidy.same rfl rfl rfl rfl
  | send f batch caller => exact grows_of_sends tidy (sends_perform_send h f batch caller)
  | sendMessage kind chunks batch caller =>
    exact grows_of_sends tidy (sends_perform_sendMessage h kind chunks batch caller)
  | abort e => exact grows_abort tidy e
  | shutdown =>
    have stopping : Grows 0 h { h with shutdown := true } := tidy.same rfl rfl rfl rfl
    exact stopping.before (grows_wake stopping.tidy)

theorem grows_foldl_perform {h : Host σ} (tidy : h.Tidy) (acts : List Act) :
    Grows (acts.map (·.grant.toNat)).sum h (acts.foldl perform h) := by
  induction acts generalizing h with
  | nil => exact tidy.stay
  | cons x acts ih =>
    have first := grows_perform tidy x
    rw [List.map_cons, List.sum_cons]
    exact first.trans (ih first.tidy)

/-! ### Earnings -/

/-- Demand grows by what the application grants in the calls, and by `back` units more. -/
def Earns (app : Application σ) (memory : σ) (back : Nat) (h k : Host σ) : Prop :=
  ∃ n, app.grants memory k.calls = app.grants memory h.calls + n ∧ Grows (n + back) h k

section Earns

variable {app : Application σ} {memory : σ} {h k l : Host σ}

theorem Earns.tidy {back : Nat} : Earns app memory back h k → k.Tidy
  | ⟨_, _, grows⟩ => grows.tidy

theorem Grows.earns {back : Nat} (grows : Grows back h k) (calls : k.calls = h.calls) :
    Earns app memory back h k :=
  ⟨0, by rw [calls]; rfl, by rwa [Nat.zero_add]⟩

theorem Earns.trans {m n : Nat} (first : Earns app memory m h k) (second : Earns app memory n k l) :
    Earns app memory (m + n) h l := by
  obtain ⟨a, one, grows⟩ := first
  obtain ⟨b, two, grows'⟩ := second
  refine ⟨a + b, by rw [two, one, Nat.add_assoc], ?_⟩
  have both := grows.trans grows'
  rwa [Nat.add_add_add_comm] at both

theorem Earns.before {n : Nat} (first : Earns app memory 0 h k) (second : Earns app memory n k l) :
    Earns app memory n h l := by
  have both := first.trans second
  rwa [Nat.zero_add] at both

theorem earns_call (tidy : h.Tidy) (recalled : h.memory = app.recollect memory h.calls) (c : Call) :
    Earns app memory 0 h (h.call app c).1 := by
  refine ⟨((app.react h.memory c).2.acts.map (·.grant.toNat)).sum, ?_, ?_⟩
  · rw [calls_call, app.grants_concat, ← recalled]
  · have called : Grows 0 h ({ h with memory := (app.react h.memory c).1 }.note (.called c)) :=
      tidy.same rfl rfl rfl rfl
    exact called.before (grows_foldl_perform called.tidy _)

theorem earns_callIf (tidy : h.Tidy) (recalled : h.memory = app.recollect memory h.calls)
    (installed : Bool) (c : Call) : Earns app memory 0 h (h.callIf app installed c).1 := by
  cases installed with
  | false => exact tidy.stay.earns rfl
  | true => exact earns_call tidy recalled c

theorem calls_resolve (h : Host σ) (t : Ticket) (o : Outcome) : (h.resolve t o).calls = h.calls :=
  congrArg Account.calls (account_resolve h t o)

theorem earns_resolve {back : Nat} (earns : Earns app memory back h k) (t : Ticket) (o : Outcome) :
    Earns app memory back h (k.resolve t o) :=
  earns.trans ((grows_resolve earns.tidy t o).earns (calls_resolve k t o))

theorem earns_answer {back : Nat} (earns : Earns app memory back h k) (t : Ticket) (reply : Reply) :
    Earns app memory back h (k.answer t reply).1 := by
  cases reply with
  | hold =>
    have kept : Grows 0 k { k with held := k.held ++ [t] } := earns.tidy.same rfl rfl rfl rfl
    exact earns.trans (kept.earns rfl)
  | succeed | fail _ | drop | panic _ => exact earns_resolve earns t _

/-- Where the application asks for frames, one unit is given back. -/
theorem earns_giveBack (earns : Earns app memory 0 h k)
    (demanding : k.session.config.demanding = true) (attached : k.attached = true) :
    Earns app memory 1 h k.giveBack := by
  have given : k.giveBack = k.grant 1 := by
    rw [giveBack, demanding, attached]
    rfl
  have grown := earns.trans ((grows_grant earns.tidy 1).earns rfl)
  rwa [given]

/-! ### Frames -/

theorem attached_resolve (h : Host σ) (t : Ticket) (o : Outcome) :
    (h.resolve t o).attached = h.attached := by
  unfold resolve deliver
  dsimp only
  split
  · rfl
  · rfl
  · rfl
  · split <;> rfl

theorem attached_callIf (app : Application σ) (h : Host σ) (installed : Bool) (c : Call) :
    (h.callIf app installed c).1.attached = h.attached := by
  cases installed with
  | false => rfl
  | true =>
    have handler : (h.call app c).1.handler = h.handler :=
      congrArg Front.handler (front_call app h c)
    rw [callIf, if_pos rfl, attached, attached, handler]

theorem settleFrame_control (calm : app.Calm) (h : Host σ) (f : Frame) (t : Ticket) :
    h.settleFrame app f t .control =
      (((h.callIf app app.hooks.onControl (.control f)).1.resolve t (.ok ())).giveBack, none) := by
  have calmly := reply_callIf_ne calm h app.hooks.onControl (.control f)
  cases called : h.callIf app app.hooks.onControl (.control f) with
  | mk k reply =>
    rw [called] at calmly
    cases reply with
    | panic p => exact (calmly p rfl).elim
    | succeed | fail _ | drop | hold => simp only [settleFrame, called]

theorem earns_settleFrame (calm : app.Calm) (tidy : h.Tidy)
    (recalled : h.memory = app.recollect memory h.calls) (attached : h.attached = true) (f : Frame)
    (t : Ticket) {ruling : Assembly.Ruling} {verdict : Assembly.Verdict}
    (covers : ruling.Covers verdict)
    (demanding : (h.settleFrame app f t verdict).1.session.config.demanding = true) :
    Earns app memory ruling.back h (h.settleFrame app f t verdict).1 := by
  have resolved (o : Outcome) : Earns app memory 0 h (h.resolve t o) :=
    earns_resolve (tidy.stay.earns rfl) t o
  have config (k : Host σ) : k.giveBack.session.config = k.session.config :=
    congrArg Front.config (front_giveBack k)
  cases covers with
  | close => exact resolved _
  | refuse e => exact resolved _
  | malformed reason => exact resolved _
  | keep =>
    refine earns_giveBack (resolved _) ?_ ?_
    · exact (congrArg Config.demanding (config _)).symm.trans demanding
    · rw [attached_resolve, attached]
  | pass =>
    have called := earns_callIf tidy recalled app.hooks.onControl (.control f)
    have attending := (attached_callIf app h app.hooks.onControl (.control f)).trans attached
    rw [settleFrame_control calm] at demanding ⊢
    refine earns_giveBack (earns_resolve called t _) ?_ ?_
    · exact (congrArg Config.demanding (config _)).symm.trans demanding
    · rw [attached_resolve, attending]
  | deliver m =>
    have called := earns_call tidy recalled (.message m)
    simp only [settleFrame]
    split
    · exact earns_answer called _ _
    · exact resolved _

/-! ### The opening -/

theorem opened_assembling (calm : app.Calm) {a : Assembly.Assembler}
    (handler : h.handler = .assembling a) (t : Ticket) :
    h.opened app t =
      (Host.resolve { ((h.note (.handed .opened)).callIf app app.hooks.onOpen .opened).1 with
        handler := .assembling a.opened } t (.ok ()), none) := by
  have same : (h.note (.handed .opened)).handler = .assembling a := handler
  have calmly := reply_callIf_ne calm (h.note (.handed .opened)) app.hooks.onOpen .opened
  cases called : (h.note (.handed .opened)).callIf app app.hooks.onOpen .opened with
  | mk k reply =>
    rw [called] at calmly
    cases reply with
    | panic p => exact (calmly p rfl).elim
    | succeed | fail _ | drop | hold => simp only [opened, same, called]

theorem earns_opened (calm : app.Calm) (tidy : h.Tidy)
    (recalled : h.memory = app.recollect memory h.calls) {a : Assembly.Assembler}
    (handler : h.handler = .assembling a) (t : Ticket) :
    Earns app memory 0 h (h.opened app t).1 := by
  have noted : Grows 0 h (h.note (.handed .opened)) := tidy.same rfl rfl rfl rfl
  have same : (h.note (.handed .opened)).calls = h.calls :=
    (record_note _ h _).trans (List.append_nil _)
  have called := (noted.earns same).trans
    (earns_callIf noted.tidy (recalled.trans (by rw [same])) app.hooks.onOpen .opened)
  have attending : Grows 0 ((h.note (.handed .opened)).callIf app app.hooks.onOpen .opened).1
      { ((h.note (.handed .opened)).callIf app app.hooks.onOpen .opened).1 with
        handler := .assembling a.opened } :=
    called.tidy.same rfl rfl rfl rfl
  rw [opened_assembling calm handler]
  exact earns_resolve (called.trans (attending.earns rfl)) t _

/-- The front after the opening. -/
theorem front_opened (calm : app.Calm) {a : Assembly.Assembler}
    (handler : h.handler = .assembling a) {n : Nat} (last : h.callbacks = n) :
    let k := (h.opened app (.root (.driver n))).1
    k.handler = .assembling a.opened ∧ k.verdict = some (.ok ()) ∧ k.held = h.held ∧
      k.calls = h.calls ++ if app.hooks.onOpen then [.opened] else [] := by
  let noted := h.note (.handed .opened)
  have calls : noted.calls = h.calls := (record_note _ h _).trans (List.append_nil _)
  have called : (noted.callIf app app.hooks.onOpen .opened).1.callbacks = n ∧
      (noted.callIf app app.hooks.onOpen .opened).1.held = h.held ∧
      (noted.callIf app app.hooks.onOpen .opened).1.calls =
        h.calls ++ if app.hooks.onOpen then [.opened] else [] := by
    cases app.hooks.onOpen with
    | false => exact ⟨last, rfl, calls.trans (List.append_nil _).symm⟩
    | true =>
      have front := front_call app noted .opened
      refine ⟨(congrArg Front.callbacks front).trans last, congrArg Front.held front, ?_⟩
      exact (congrArg Front.calls front).trans (congrArg (· ++ [Call.opened]) calls)
  intro k
  have front : k.front = { (noted.callIf app app.hooks.onOpen .opened).1.front with
      handler := .assembling a.opened, verdict := some (.ok ()) } := by
    refine (congrArg (·.1.front) (opened_assembling calm handler _)).trans ?_
    exact front_resolve_callback (h := { (noted.callIf app app.hooks.onOpen .opened).1 with
      handler := .assembling a.opened }) called.1 (.ok ())
  exact ⟨congrArg Front.handler front, congrArg Front.verdict front,
    (congrArg Front.held front).trans called.2.1, (congrArg Front.calls front).trans called.2.2⟩

end Earns

end Host

namespace Assembly

open Host

variable {app : Application σ} {memory : σ} {h : Host σ}

/-- A frame costs nothing if it is not the end of a message: its unit is given back. -/
theorem earns_hand (calm : app.Calm) {w : World σ} (mirrored : Mirrors w h) (tidy : h.Tidy)
    (recalled : h.memory = app.recollect memory h.calls) (attached : h.attached = true) (f : Frame)
    (demanding : (hand app h ⟨[], f⟩).1.session.config.demanding = true) :
    Earns app memory (w.reference.rule app.hooks w.config f).2.back h (hand app h ⟨[], f⟩).1 := by
  obtain ⟨_, config, a, handler, rep⟩ := mirrored
  have front := front_judged app h a ⟨[], f⟩
  have calls : (judged app h a ⟨[], f⟩).calls = h.calls := congrArg Front.calls front
  have remembered : (judged app h a ⟨[], f⟩).memory = h.memory := congrArg Front.memory front
  have judging : (judged app h a ⟨[], f⟩).attached = true := by
    have kept : (judged app h a ⟨[], f⟩).handler = _ := congrArg Front.handler front
    rw [Host.attached, handler] at attached
    rw [Host.attached, kept]
    exact (attached_step a _ _ _).trans attached
  have waiting : Grows 0 h { (Connection.handOver h).1.note (.handed (.frame f)) with
      handler := .assembling (a.step app.hooks h.session.config f).1 } :=
    tidy.same rfl rfl rfl rfl
  have grown : Grows 0 h (judged app h a ⟨[], f⟩) :=
    waiting.before (grows_foldl_log waiting.tidy _)
  have agreed := agrees_step rep app.hooks h.session.config f
  rw [hand_eq_settleFrame app handler ⟨[], f⟩] at demanding ⊢
  rw [← config]
  exact (grown.earns calls).before (earns_settleFrame calm grown.tidy
    (by rw [remembered, calls, recalled]) judging f _ agreed.2 demanding)

end Assembly

end WebSocketEngine
