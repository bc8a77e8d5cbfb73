import WebSocketEngine.Proofs.Connection.Ways
import Mathlib.Algebra.Group.Basic
import Mathlib.Algebra.Group.Pi.Basic

/-!
What a connection contributes to the counts that all connections share.

    running       one, from entering to leaving
    inbound       the frames that were handed over
    outbound      the frames that were accepted for sending
    failed l      the failures of that kind that the handler was told, and one for "panic" if the
                  application crashed over a driver that runs on its own

The part of a connection in the counts is read off its phase and its record (`part`).  Whatever it
does, the house counts as much more as its part has grown: what the others have contributed, the
base, stays (`Counted`, `counted_beat`).  What is counted as accepted is there to be seen: it has
been fetched or waits in the outbox, as long as there is a writer (`Host.Queued`).
-/

namespace WebSocketEngine

variable {σ : Type}

/-! ### What is counted -/

/-- What is counted of connections. -/
inductive Item
  | running
  | inbound
  | outbound
  | failed (label : String)
  deriving DecidableEq

def House.total (house : House) : Item → ℕ
  | .running => house.running
  | .inbound => house.metrics.inbound
  | .outbound => house.metrics.outbound
  | .failed label => Tally.count label house.metrics.failures

theorem Tally.count_cons (label l : String) (n : Nat) (t : Tally) :
    Tally.count label ((l, n) :: t) = if label = l then n else Tally.count label t := by
  rw [count, List.lookup_cons]
  by_cases same : label = l
  · simp [same]
  · have unequal : (label == l) = false := beq_eq_false_iff_ne.mpr same
    simp only [unequal, if_neg same]
    rfl

theorem Tally.count_bump (label l : String) (t : Tally) :
    Tally.count l (Tally.bump label t) = Tally.count l t + if l = label then 1 else 0 := by
  induction t with
  | nil =>
    rw [bump, count_cons]
    split <;> rfl
  | cons entry t ih =>
    obtain ⟨m, n⟩ := entry
    rw [bump]
    split
    · next same =>
      subst same
      rw [count_cons, count_cons]
      split <;> rfl
    · next other =>
      rw [count_cons, count_cons, ih]
      split
      · next found =>
        rw [if_neg (found ▸ other)]
        rfl
      · rfl

/-- The failure of an event. -/
def Call.failure? : Call → Option Failure
  | .failed e => some e
  | .opened | .message _ | .frame _ | .control _ | .closed _ => none

/-- What is to be counted of events at the handler. -/
def due (es : List Call) : Item → ℕ
  | .running | .outbound => 0
  | .inbound => (es.filterMap Call.frame?).length
  | .failed label => ((es.filterMap Call.failure?).map Failure.label).count label

theorem due_nil : due [] = 0 := by
  funext item
  cases item <;> rfl

theorem due_opened : due [.opened] = 0 := by
  funext item
  cases item <;> rfl

theorem due_closed (code : CloseCode) : due [.closed code] = 0 := by
  funext item
  cases item <;> rfl

theorem due_frame (f : Frame) : due [.frame f] = Pi.single .inbound 1 := by
  funext item
  cases item <;> rfl

theorem due_failed (e : Failure) : due [.failed e] = Pi.single (.failed e.label) 1 := by
  funext item
  cases item with
  | failed label =>
    show [e.label].count label = _
    by_cases same : label = e.label
    · simp [same]
    · simp [same, Ne.symm same]
  | running | inbound | outbound => rfl

theorem due_append (es fs : List Call) : due (es ++ fs) = due es + due fs := by
  funext item
  cases item <;> simp [due]

namespace Host

variable {h k l : Host σ} {es fs : List Call} {base : Item → ℕ} {told : List Failure}

/-! ### What is counted of a host -/

/-- The failures that the handler was told. -/
def failings (h : Host σ) : List Failure := h.events.filterMap Call.failure?

/-- What the record of a host contributes. -/
def part (h : Host σ) : Item → ℕ := due h.events + Pi.single .outbound h.sent.length

/-- As long as there is a writer, what was accepted has been fetched or waits to be. -/
def Queued (h : Host σ) : Prop :=
  ∀ queue, h.session.outbox = some queue → h.sent = h.got ++ queue.map fun o => (o.frame, o.batch)

/-- Frames are counted as the writer's queue accepts them, and nothing else is counted. -/
structure Ships (h k : Host σ) : Prop where
  counted : ∃ taken, k.sent = h.sent ++ taken ∧
    k.house = { h.house with
      metrics := { h.house.metrics with
        outbound := h.house.metrics.outbound + taken.length } }
  queued : h.Queued → k.Queued

theorem ships_of_eq (house : k.house = h.house) (outbox : k.session.outbox = h.session.outbox)
    (journal : k.journal = h.journal) : Ships h k where
  counted := ⟨[], (record_of_journal journal _).trans (List.append_nil _).symm, house⟩
  queued queued queue waits := by
    rw [sent, got, record_of_journal journal, record_of_journal journal]
    exact queued queue (outbox ▸ waits)

theorem Ships.trans (first : Ships h k) (second : Ships k l) : Ships h l where
  counted := by
    obtain ⟨taken, sent, house⟩ := first.counted
    obtain ⟨taken', sent', house'⟩ := second.counted
    refine ⟨taken ++ taken', by rw [sent', sent, List.append_assoc], ?_⟩
    rw [house', house, List.length_append, Nat.add_assoc]
  queued queued := second.queued (first.queued queued)

theorem ships_note (h : Host σ) {n : Note} (unsent : n.sent? = none) (ungot : n.got? = none) :
    Ships h (h.note n) := by
  have sent : (h.note n).sent = h.sent ++ [] := by rw [Host.sent, record_note, unsent]; rfl
  have got : (h.note n).got = h.got ++ [] := by rw [Host.got, record_note, ungot]; rfl
  refine ⟨⟨[], sent, rfl⟩, fun queued queue waits => ?_⟩
  rw [sent, got, List.append_nil, List.append_nil]
  exact queued queue waits

theorem ships_accept {out : Outbound} {queue : List Outbound}
    (waits : h.session.outbox = some queue) : Ships h (h.accept out queue) := by
  have sent : (h.accept out queue).sent = h.sent ++ [(out.frame, out.batch)] := record_note _ _ _
  have got : (h.accept out queue).got = h.got ++ [] := record_note _ _ _
  refine ⟨⟨_, sent, rfl⟩, fun queued after same => ?_⟩
  cases (same : some (queue ++ [out]) = some after)
  rw [sent, got, queued queue waits, List.map_append, List.append_nil, List.append_assoc]
  rfl

theorem ships_deliver (h : Host σ) (d : Option (Completion.Delivery Sink)) :
    Ships h (h.deliver d) := by
  unfold deliver
  split
  · exact ships_of_eq rfl rfl rfl
  · exact ships_of_eq rfl rfl rfl
  · exact ships_note h rfl rfl
  · split <;> exact ships_of_eq rfl rfl rfl

theorem ships_resolve (h : Host σ) (t : Ticket) (o : Outcome) : Ships h (h.resolve t o) := by
  have booked : Ships h { h with ledger := (h.ledger.resolve t o).1 } := ships_of_eq rfl rfl rfl
  exact booked.trans (ships_deliver _ _)

theorem ships_of_sends {P : Frame → Prop} (sends : Sends P h k) : Ships h k := by
  induction sends with
  | refl => exact ships_of_eq rfl rfl rfl
  | book ledger _ ih => exact ih.trans (ships_of_eq rfl rfl rfl)
  | settle caller o _ ih => exact ih.trans (ships_note _ rfl rfl)
  | accept _ _ waits _ _ ih => exact ih.trans (ships_accept waits)
  | lose _ _ _ _ ih => exact ih.trans (ships_of_eq rfl rfl rfl)

theorem ships_abort (h : Host σ) (e : Failure) : Ships h (h.abort e) := by
  rcases abort_cases h e with same | ⟨-, aborted⟩
  · rw [same]
    exact ships_of_eq rfl rfl rfl
  · rw [aborted]
    have line := ships_note h (n := .logged (abortedLine h.session.id e)) rfl rfl
    exact line.trans (ships_of_eq rfl rfl rfl)

theorem ships_of_works (works : Works h k) : Ships h k := by
  induction works with
  | refl => exact ships_of_eq rfl rfl rfl
  | tail _ work ih =>
    refine ih.trans ?_
    cases work with
    | remember | handle | keep | configure | grant | stop => exact ships_of_eq rfl rfl rfl
    | note n _ unsent ungot => exact ships_note _ unsent ungot
    | abort e => exact ships_abort _ e
    | resolve t o => exact ships_resolve _ t o
    | sends sends => exact ships_of_sends sends

/-! ### Events at the handler -/

/-- Frames are counted as they are accepted, and the handler is given events. -/
structure Counts (es : List Call) (h k : Host σ) : Prop where
  ships : Ships h k
  events : k.events = h.events ++ es

theorem Counts.trans (first : Counts es h k) (second : Counts fs k l) : Counts (es ++ fs) h l where
  ships := first.ships.trans second.ships
  events := by rw [second.events, first.events, List.append_assoc]

theorem Counts.failings (counts : Counts es h k) :
    k.failings = h.failings ++ es.filterMap Call.failure? := by
  rw [Host.failings, counts.events, List.filterMap_append, Host.failings]

/-- Nothing is counted or entered in the record. -/
theorem counts_of_eq (house : k.house = h.house) (outbox : k.session.outbox = h.session.outbox)
    (journal : k.journal = h.journal) : Counts [] h k where
  ships := ships_of_eq house outbox journal
  events := (record_of_journal journal _).trans (List.append_nil _).symm

theorem counts_take {session : Session} (taken : h.session.take? = some session) :
    Counts [] h { h with session } := by
  obtain ⟨-, rfl⟩ := Session.eq_of_take? taken
  exact counts_of_eq rfl rfl rfl

theorem counts_note (h : Host σ) {n : Note} (unsent : n.sent? = none) (ungot : n.got? = none) :
    Counts n.event?.toList h (h.note n) := ⟨ships_note h unsent ungot, record_note _ h n⟩

theorem counts_log (h : Host σ) (l : Log.Line) : Counts [] h (h.log l) :=
  counts_note h (n := .logged l) rfl rfl

theorem counts_of_works (works : Works h k) (events : k.events = h.events) : Counts [] h k :=
  ⟨ships_of_works works, events.trans (List.append_nil _).symm⟩

theorem counts_of_sends {P : Frame → Prop} (sends : Sends P h k) : Counts [] h k :=
  counts_of_works (Work.sends sends).once sends.events

theorem counts_resolve (h : Host σ) (t : Ticket) (o : Outcome) : Counts [] h (h.resolve t o) := by
  refine counts_of_works (works_resolve h t o) ?_
  rcases docket_resolve h t o with same | ⟨-, -, whole, settled⟩
  · exact congrArg Docket.events same
  · exact congrArg Docket.events settled

theorem counts_abort (h : Host σ) (e : Failure) : Counts [] h (h.abort e) :=
  counts_of_works (Work.abort e).once (congrArg Docket.events (docket_abort h e))

theorem counts_foldl_log (h : Host σ) (lines : List Log.Line) : Counts [] h (lines.foldl log h) :=
  counts_of_works (works_foldl_log h lines) (congrArg Docket.events (docket_foldl_log h lines))

theorem Docket.Heard.events {d e : Docket} (heard : d.Heard e) : e.events = d.events := by
  cases heard <;> rfl

theorem counts_opened (app : Application σ) (h : Host σ) {t : Ticket}
    (mine : t.sink = .driver h.callbacks) : Counts [.opened] h (h.opened app t).1 where
  ships := ships_of_works (works_opened app h t)
  events := (heard_opened app h mine).events

theorem counts_frame (app : Application σ) (h : Host σ) (f : Frame) {t : Ticket}
    (mine : t.sink = .driver h.callbacks) : Counts [.frame f] h (h.frame app f t).1 where
  ships := (ships_note h (n := .handed (.frame f)) rfl rfl).trans
    (ships_of_works (works_frame app h f t))
  events := (heard_frame app h f mine).events

theorem counts_failed (app : Application σ) (h : Host σ) (e : Failure) :
    Counts [.failed e] h (h.failed app e).1 where
  ships := ships_of_works (works_failed app h e)
  events := congrArg Docket.events (docket_failed h e)

theorem counts_closed (app : Application σ) (h : Host σ) (code : CloseCode) :
    Counts [.closed code] h (h.closed app code).1 where
  ships := ships_of_works (works_closed app h code)
  events := congrArg Docket.events (docket_closed h code)

/-! ### What is counted in the house -/

/-- The house counts what the host contributes on top of the base; the gauge shows what runs, and
    what was accepted is there. -/
structure Even (base : Item → ℕ) (h : Host σ) : Prop where
  gauge : h.house.metrics.connections.getD 0 = h.house.running
  total : h.house.total = base + h.part
  queued : h.Queued

/-- What was due has come about. -/
theorem Even.counts (even : Even (base + due es) h) (counts : Counts es h k) : Even base k := by
  obtain ⟨⟨⟨taken, sent, house⟩, queued⟩, events⟩ := counts
  refine ⟨by rw [house]; exact even.gauge, ?_, queued even.queued⟩
  funext item
  have total := congrFun even.total item
  rw [part, events, sent, due_append, house]
  cases item with
  | outbound =>
    simp only [House.total, part, Pi.add_apply, Pi.single_eq_same, List.length_append] at total ⊢
    omega
  | running | inbound | failed label =>
    simp only [House.total, part, Pi.add_apply, ne_eq, reduceCtorEq, not_false_eq_true,
      Pi.single_eq_of_ne] at total ⊢
    omega

theorem Even.idle (even : Even base h) (counts : Counts es h k) (idle : due es = 0) : Even base k :=
  Even.counts (by rwa [idle, add_zero]) counts

theorem Even.quiet (even : Even base h) (counts : Counts [] h k) : Even base k :=
  even.idle counts due_nil

/-- One thing more is counted. -/
theorem Even.count (even : Even base h) {m : Metric} {item : Item}
    (gauge : (h.house.metrics.record m).connections = h.house.metrics.connections)
    (counted : ({ h.house with metrics := h.house.metrics.record m } : House).total =
      h.house.total + Pi.single item 1) :
    Even (base + Pi.single item 1) (h.count m) where
  gauge := (congrArg (·.getD 0) gauge).trans even.gauge
  total := by
    show ({ h.house with metrics := h.house.metrics.record m } : House).total = _ + h.part
    rw [counted, even.total, add_right_comm]
  queued := even.queued

theorem Even.count_inbound (even : Even base h) :
    Even (base + Pi.single .inbound 1) (h.count .inbound) := by
  refine even.count rfl (funext fun item => ?_)
  cases item <;> simp [House.total, Metrics.record]

theorem Even.count_failed (even : Even base h) (label : String) :
    Even (base + Pi.single (.failed label) 1) (h.count (.failed label)) := by
  refine even.count rfl (funext fun item => ?_)
  cases item with
  | failed l => simp [House.total, Metrics.record, Tally.count_bump, Pi.single_apply]
  | running | inbound | outbound => simp [House.total, Metrics.record]

/-- The host of a connection that runs, with the failures that its handler was told. -/
structure Inside (base : Item → ℕ) (told : List Failure) (h : Host σ) : Prop where
  even : Even (base + Pi.single .running 1) h
  told : h.failings = told

theorem Inside.counts (inside : Inside base told h) (counts : Counts es h k) (idle : due es = 0)
    (untold : es.filterMap Call.failure? = []) : Inside base told k where
  even := inside.even.idle counts idle
  told := by rw [counts.failings, inside.told, untold, List.append_nil]

theorem Inside.quiet (inside : Inside base told h) (counts : Counts [] h k) : Inside base told k :=
  inside.counts counts due_nil rfl

end Host

namespace Connection

open Host (Even Counts Inside)

variable {app : Application σ} {c d : Connection σ} {base : Item → ℕ} {told : List Failure}

/-! ### What is counted of a connection -/

/-- What the phase of a connection contributes. -/
def Phase.part (detached : Bool) : Phase → Item → ℕ
  | .idle | .starting | .finished (.closed _) | .finished (.failed _) => 0
  | .opening | .reading _ | .serving _ => Pi.single .running 1
  | .finished (.crashed _) => if detached then Pi.single (.failed "panic") 1 else 0

def part (c : Connection σ) : Item → ℕ := c.phase.part c.detached + c.host.part

/-- Which failures the handler was told, by phase. -/
def Phase.Told : Phase → List Failure → Prop
  | .finished (.failed e), told => told = [e]
  | .finished (.crashed _), told => told.length ≤ 1
  | .idle, told | .starting, told | .opening, told | .reading _, told | .serving _, told
  | .finished (.closed _), told => told = []

/-- The house counts what the connection contributes on top of the base. -/
structure Counted (base : Item → ℕ) (c : Connection σ) : Prop where
  even : Even (base + c.phase.part c.detached) c.host
  told : c.phase.Told c.host.failings

/-! ### Ways out -/

theorem even_release (even : Even (base + Pi.single .running 1) c.host) (ending : Ending) :
    Even base (c.release ending).host := by
  have running : c.host.house.running = base .running + 1 := by
    simpa [House.total, Host.part, due] using congrFun even.total .running
  let freed := { c.host with
    house := { c.host.house with running := c.host.house.running - 1 }
    parked := c.host.parked.erase .driver }
  have begun : Even base (freed.count .disconnected) := by
    refine ⟨?_, funext fun item => ?_, even.queued⟩
    · have gauge := even.gauge
      show c.host.house.metrics.connections.getD 0 - 1 = ((c.host.house.running - 1 : ℕ) : ℤ)
      omega
    · have total := congrFun even.total item
      cases item with
      | running =>
        show c.host.house.running - 1 = _
        simp [Host.part, due, running]
      | inbound | outbound | failed label =>
        rw [Pi.add_apply, Pi.add_apply, Pi.single_eq_of_ne (by simp), add_zero] at total
        exact total
  exact begun.quiet (Host.counts_log (freed.count .disconnected) _)

theorem failings_release (c : Connection σ) (ending : Ending) :
    (c.release ending).host.failings = c.host.failings :=
  congrArg (List.filterMap Call.failure?) ((Host.record_note _ _ _).trans (List.append_nil _))

theorem counted_release (inside : Inside base told c.host) {ending : Ending}
    (order : Phase.part c.detached (.finished ending) = 0)
    (fitting : Phase.Told (.finished ending) told) : Counted base (c.release ending) where
  even := by
    have left := even_release inside.even ending
    rwa [← add_zero base, ← order] at left
  told := ((failings_release c ending).trans inside.told).symm ▸ fitting

theorem counted_leave (inside : Inside base told c.host) {ending : Ending}
    (order : Phase.part c.detached (.finished ending) = 0)
    (fitting : Phase.Told (.finished ending) told) : Counted base (c.leave ending) := by
  let off := { c with supervisor := c.supervisor.deregister c.id }
  unfold leave
  dsimp only
  split
  · exact counted_release (c := off) inside order fitting
  · exact counted_release inside order fitting

theorem counted_crash (inside : Inside base told c.host) (few : told.length ≤ 1) (p : Panic) :
    Counted base (c.crash p) := by
  unfold crash
  dsimp only
  split
  · next alone =>
    have alone : Phase.part c.detached (.finished (.crashed p)) = Pi.single (.failed "panic") 1 :=
      if_pos alone
    let counted := (c.release (.crashed p)).host.count (.failed "panic")
    have lines := Host.counts_foldl_log counted (crashedLines c.id p)
    have reported := (even_release inside.even (.crashed p)).count_failed "panic"
    have still : counted.failings ++ [] = told :=
      (List.append_nil _).trans ((failings_release c (.crashed p)).trans inside.told)
    exact ⟨(alone ▸ reported : Even _ counted).quiet lines, (lines.failings.trans still).symm ▸ few⟩
  · next passed =>
    have passed : ¬c.detached = true := passed
    exact counted_release inside (if_neg passed) few

/-- After a callback, and after the crash of one. -/
theorem counted_unlessCrashed {r : Host σ × Option Panic} (inside : Inside base told r.1)
    (few : told.length ≤ 1) {next : Connection σ → Connection σ}
    (onward : Counted base (next { c with host := r.1 })) :
    Counted base (c.unlessCrashed r next) := by
  unfold unlessCrashed
  dsimp only
  split
  · exact counted_crash (c := { c with host := r.1 }) inside few _
  · exact onward

theorem counted_finish (inside : Inside base [] c.host) (app : Application σ) (code : CloseCode) :
    Counted base (c.finish app code) := by
  have logged := Host.counts_log c.host (closedLine c.id code)
  have closed := inside.counts (logged.trans (Host.counts_closed app _ code)) (due_closed code) rfl
  unfold finish
  exact counted_unlessCrashed closed (Nat.zero_le 1)
    (counted_leave (c := { c with host := _ }) closed rfl rfl)

theorem counted_fail (inside : Inside base [] c.host) (app : Application σ) (e : Failure) :
    Counted base (c.fail app e) := by
  let counted := (c.host.log (failedLine c.id e)).count (.failed e.label)
  have logs := inside.quiet (Host.counts_log c.host (failedLine c.id e))
  -- The failure is counted before the handler is told, and so it is due until then.
  have failing := Host.counts_failed app counted e
  have ready : Even (base + Pi.single .running 1 + due [.failed e]) counted := by
    rw [due_failed]
    exact logs.even.count_failed e.label
  have failed : Inside base [e] (counted.failed app e).1 :=
    ⟨ready.counts failing, failing.failings.trans (congrArg (· ++ [e]) logs.told)⟩
  have closing := Host.counts_of_sends
    (sends_sendClose (counted.failed app e).1 e.closeCode (CloseReason.ofFailure e))
  have closed := failed.counts (closing.trans (Host.counts_closed app _ e.closeCode))
    (due_closed e.closeCode) rfl
  unfold fail
  refine counted_unlessCrashed failed (Nat.le_refl 1) ?_
  refine counted_unlessCrashed (c := { c with host := _ }) closed (Nat.le_refl 1) ?_
  exact counted_leave (c := { c with host := _ }) closed rfl rfl

theorem counted_finishShutdown (inside : Inside base [] c.host) (app : Application σ) :
    Counted base (c.finishShutdown app) := by
  have closing := Host.counts_of_sends (sends_sendClose c.host .goingAway shutdownReason)
  exact counted_finish (c := { c with host := _ }) (inside.quiet closing) app _

/-! ### From frame to frame -/

theorem even_enter (even : Even base c.host) :
    Even (base + Pi.single .running 1) (({ c.host with
      house := { c.host.house with running := c.host.house.running + 1 } } : Host σ).count
        .connected) := by
  refine ⟨?_, funext fun item => ?_, even.queued⟩
  · have gauge := even.gauge
    show c.host.house.metrics.connections.getD 0 + 1 = ((c.host.house.running + 1 : ℕ) : ℤ)
    omega
  · have total := congrFun even.total item
    cases item with
    | running =>
      rw [Pi.add_apply, Pi.add_apply, Pi.single_eq_same, add_right_comm]
      exact congrArg (· + 1) total
    | inbound | outbound | failed label =>
      rw [Pi.add_apply, Pi.add_apply, Pi.single_eq_of_ne (by simp), add_zero]
      exact total

theorem counted_enter (even : Even base c.host) (untold : c.host.failings = [])
    (app : Application σ) : Counted base (c.enter app) := by
  let counted : Host σ := { c.host with
    house := { c.host.house with running := c.host.house.running + 1 } }.count .connected
  let logged := counted.log (openedLine c.id (c.host.house.running + 1))
  have entered : Inside base [] counted := ⟨even_enter even, untold⟩
  have logs := entered.quiet (Host.counts_log counted (openedLine c.id (c.host.house.running + 1)))
  have waits := logs.quiet (k := (handOver logged).1) (Host.counts_of_eq rfl rfl rfl)
  have opened := waits.counts
    (Host.counts_opened app (handOver logged).1 (t := (handOver logged).2) rfl) due_opened rfl
  show Counted base (c.unlessCrashed _ ({ · with phase := .opening }))
  exact counted_unlessCrashed opened (Nat.zero_le 1) ⟨opened.even, opened.told⟩

theorem counted_dispatch (inside : Inside base [] c.host) (app : Application σ) (f : Frame) :
    Counted base (c.dispatch app f) := by
  let counted := c.host.touch.count .inbound
  have touched := inside.quiet (k := c.host.touch) (Host.counts_of_eq rfl rfl rfl)
  have waits : Counts [] counted (handOver counted).1 := Host.counts_of_eq rfl rfl rfl
  have framing := waits.trans
    (Host.counts_frame app (handOver counted).1 f (t := (handOver counted).2) rfl)
  -- So is a frame, until it is handed over.
  have ready : Even (base + Pi.single .running 1 + due [.frame f]) counted := by
    rw [due_frame]
    exact touched.even.count_inbound
  have framed : Inside base [] ((handOver counted).1.frame app f (handOver counted).2).1 :=
    ⟨ready.counts framing, framing.failings.trans (congrArg (· ++ []) touched.told)⟩
  show Counted base (c.unlessCrashed _ ({ · with phase := .serving f }))
  exact counted_unlessCrashed framed (Nat.zero_le 1) ⟨framed.even, framed.told⟩

theorem counted_conclude (inside : Inside base [] c.host) (app : Application σ) (f : Frame) :
    Counted base (c.conclude app f) := by
  have answered := inside.quiet (Host.counts_of_sends (sends_sendPong c.host f))
  unfold conclude
  split
  · next code _ =>
    have closing := Host.counts_of_sends (sends_sendClose (sendPong c.host f) code "")
    exact counted_finish (c := { c with host := _ }) (answered.quiet closing) app code
  · exact ⟨answered.even, answered.told⟩

/-! ### Moves -/

/-- Nothing is counted, and the driver does not move. -/
theorem Counted.quiet (counted : Counted base c) (counts : Counts [] c.host d.host)
    (phase : d.phase = c.phase) (detached : d.detached = c.detached) : Counted base d where
  even := by
    rw [phase, detached]
    exact counted.even.quiet counts
  told := by
    rw [phase, counts.failings, List.filterMap_nil, List.append_nil]
    exact counted.told

theorem counted_of_way (counted : Counted base c) (way : Way app c d) : Counted base d := by
  obtain ⟨even, told⟩ := counted
  cases way with
  | enters starting =>
    rw [starting] at even told
    exact counted_enter even told app
  | opens opening verdict =>
    rw [opening] at even told
    exact ⟨even, told⟩
  | @concludes f serving verdict =>
    rw [serving] at even told
    exact counted_conclude (c := { c with patience := c.patience - 1 }) ⟨even, told⟩ app f
  | fails awaits outcome =>
    cases phase : c.phase with
    | opening | serving f =>
      rw [phase] at even told
      exact counted_fail ⟨even, told⟩ app _
    | idle | starting | reading _ | finished _ =>
      rw [phase] at awaits
      cases awaits
  | stops reading stopping =>
    rw [reading] at even told
    exact counted_finishShutdown ⟨even, told⟩ app
  | aborts reading going reason =>
    rw [reading] at even told
    exact counted_fail ⟨even, told⟩ app _
  | @takes session reading free taken =>
    rw [reading] at even told
    have took := (Host.counts_take taken).trans (Host.counts_note _ (n := .took) rfl rfl)
    exact ⟨even.quiet took, took.failings.trans (congrArg (· ++ []) told)⟩
  | @hands f rest reading free arrived =>
    rw [reading] at even told
    exact counted_dispatch (c := { c with inbound := rest }) ⟨even, told⟩ app f
  | runsOut reading free empty ended =>
    rw [reading] at even told
    exact counted_fail ⟨even, told⟩ app _

theorem counts_serve (h : Host σ) (n : Nat) : Counts [] h (serve h n) := by
  unfold serve
  split
  · next session taken =>
    exact (Host.counts_take taken).trans (Host.counts_note _ (n := .served n) rfl rfl)
  · exact Host.counts_of_eq rfl rfl rfl

theorem counts_rest (c : Connection σ) (h : Host σ) : Counts [] h (c.rest h) := by
  unfold rest
  split <;> exact Host.counts_of_eq rfl rfl rfl

theorem counted_step (counted : Counted base c) (stepped : c.step app = some d) :
    Counted base d := by
  cases pace_of_step stepped with
  | @serves n tasks queue =>
    have turn : Counts [] c.host { c.host with ready := tasks } := Host.counts_of_eq rfl rfl rfl
    exact counted.quiet (turn.trans (counts_serve _ n)) rfl rfl
  | yields queue tired => exact counted.quiet (Host.counts_of_eq rfl rfl rfl) rfl rfl
  | turns awake way => exact counted_of_way counted way
  | @rests tasks queue lacks =>
    have turn : Counts [] c.host { c.host with ready := tasks } := Host.counts_of_eq rfl rfl rfl
    exact counted.quiet (turn.trans (counts_rest c _)) rfl rfl

/-! ### From outside -/

theorem counted_expire (counted : Counted base c) (e : Idle.Expiry Unit) :
    Counted base (c.expire e) := by
  let noticed := c.host.count .idleTimeout
  have even : Even (base + c.phase.part c.detached) noticed := by
    refine ⟨counted.even.gauge, Eq.trans (funext fun item => ?_) counted.even.total,
      counted.even.queued⟩
    cases item <;> rfl
  have told := (Host.counts_log noticed (Idle.expiryLine e.id e.idleFor)).trans
    (Host.counts_abort _ (.idleTimeout e.idleFor))
  have ready : Counted base { c with host := noticed } := ⟨even, counted.told⟩
  exact ready.quiet told rfl rfl

theorem counted_sweep (counted : Counted base c) : Counted base c.sweep.1 :=
  sweep_preserves (I := Counted base)
    (fun _ counted => counted.quiet (Host.counts_of_eq rfl rfl rfl) rfl rfl)
    (fun _ _ counted => counted.quiet (Host.counts_of_eq rfl rfl rfl) rfl rfl)
    (fun _ e counted => counted_expire counted e) counted

/-- The writer takes over what was accepted and not fetched. -/
theorem counts_fetch (c : Connection σ) : Counts [] c.host c.fetch.host := by
  have noted (queue : List Outbound) (h : Host σ) :
      let k := queue.foldl (fun h o => h.note (.fetched o.frame o.batch)) h
      k.house = h.house ∧ k.session = h.session ∧ k.events = h.events ∧ k.sent = h.sent ∧
        k.got = h.got ++ queue.map fun o => (o.frame, o.batch) := by
    induction queue generalizing h with
    | nil => exact ⟨rfl, rfl, rfl, rfl, (List.append_nil _).symm⟩
    | cons o queue ih =>
      obtain ⟨house, session, events, sent, got⟩ := ih (h.note (.fetched o.frame o.batch))
      refine ⟨house, session, events.trans ?_, sent.trans ?_, got.trans ?_⟩
      · exact (Host.record_note _ _ _).trans (List.append_nil _)
      · exact (Host.record_note _ _ _).trans (List.append_nil _)
      · rw [Host.got, Host.record_note, List.append_assoc]
        rfl
  unfold fetch
  split
  · exact Host.counts_of_eq rfl rfl rfl
  · next queue waits =>
    obtain ⟨house, session, events, sent, got⟩ :=
      noted queue { c.host with session := { c.host.session with outbox := some [] } }
    refine ⟨⟨⟨[], sent.trans (List.append_nil _).symm, house⟩, fun queued after same => ?_⟩,
      events.trans (List.append_nil _).symm⟩
    rw [session] at same
    cases (same : some [] = some after)
    rw [sent, got, List.map_nil, List.append_nil]
    exact queued queue waits

/-- Nobody waits for what was accepted once the writer has gone. -/
theorem counts_dropWriter (c : Connection σ) : Counts [] c.host c.dropWriter.1.host := by
  have dropped (left : List Outbound) (h : Host σ) :
      Counts [] h (left.foldl (fun h o => h.drop o.ticket) h) := by
    induction left generalizing h with
    | nil => exact Host.counts_of_eq rfl rfl rfl
    | cons o left ih => exact (Host.counts_resolve h o.ticket _).trans (ih _)
  have gone : Counts [] c.host
      { c.host with session := { c.host.session with outbox := none } } :=
    ⟨⟨⟨[], (List.append_nil _).symm, rfl⟩, fun _ _ => nofun⟩, (List.append_nil _).symm⟩
  exact gone.trans (dropped _ _)

theorem counted_act (counted : Counted base c) {x : Command} (atOnce : x.atOnce = true) :
    Counted base (c.act app x).1 := by
  have still {h : Host σ} (house : h.house = c.host.house)
      (outbox : h.session.outbox = c.host.session.outbox) (journal : h.journal = c.host.journal) :
      Counts [] c.host h := Host.counts_of_eq house outbox journal
  have sending (sends : x.sends = true) : Counted base (c.act app x).1 := by
    obtain ⟨h, sent, acted⟩ := act_of_sends app c sends
    rw [acted]
    exact counted.quiet (Host.counts_of_sends sent) rfl rfl
  cases x with
  | send | close | sendMessage | handlerSend => exact sending rfl
  | demand | waitForDemand | setIdleTimeout | change | checkIdle | touch | endInbound | shutdown =>
    exact counted.quiet (still rfl rfl rfl) rfl rfl
  | takeDemand =>
    rcases takeDemand_cases app c with none | ⟨_, taken, took⟩
    · rwa [none]
    · rw [took]
      exact counted.quiet (Host.counts_take taken) rfl rfl
  | abort e => exact counted.quiet (Host.counts_abort c.host e) rfl rfl
  | write how =>
    rcases write_cases app c how with none | ⟨o, rest, -, wrote⟩
    · rwa [none]
    · rw [wrote]
      exact counted.quiet (Host.counts_resolve c.host _ _) rfl rfl
  | dropWriter => exact counted.quiet (counts_dropWriter c) rfl rfl
  | releaseHeld index how =>
    rcases releaseHeld_cases app c index how with none | ⟨t, -, released⟩
    · rwa [none]
    · rw [released]
      have taken : Counts [] c.host { c.host with held := c.host.held.eraseIdx index } :=
        still rfl rfl rfl
      exact counted.quiet (taken.trans (Host.counts_resolve _ t _)) rfl rfl
  | start detached =>
    rcases start_cases app c detached with none | ⟨idle, started⟩
    · rwa [none]
    · rw [started]
      obtain ⟨even, told⟩ := counted
      rw [idle] at even told
      exact ⟨even.quiet (still rfl rfl rfl), told⟩
  | arrive frames =>
    rcases arrive_cases app c frames with none | ⟨-, -, arrived⟩
    · rwa [none]
    · rw [arrived]
      exact counted.quiet (still rfl rfl rfl) rfl rfl
  | sweep => exact counted_sweep counted
  | startSweeping =>
    exact (counted_sweep counted).quiet (Host.counts_of_eq rfl rfl rfl) rfl rfl
  | handOpening | handFrame _ | handFailure _ | handClosed _ | wait _ => cases atOnce

/-- Whatever a connection does, the house counts as much more as its part has grown. -/
theorem counted_beat (counted : Counted base c) {b : Beat} (atOnce : b.atOnce = true) :
    Counted base (c.beat app b) := by
  cases b with
  | act x => exact counted_act counted atOnce
  | fetch =>
    have still : c.fetch.phase = c.phase ∧ c.fetch.detached = c.detached := by
      unfold fetch
      split <;> exact ⟨rfl, rfl⟩
    exact counted.quiet (counts_fetch c) still.1 still.2
  | clock now sweepers => exact counted.quiet (Host.counts_of_eq rfl rfl rfl) rfl rfl
  | step =>
    rw [beat]
    cases stepped : c.step app with
    | none => exact counted
    | some d => exact counted_step counted stepped

end Connection

end WebSocketEngine
