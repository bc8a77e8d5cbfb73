import WebSocketEngine.Proofs.Assembly.Handed
import WebSocketEngine.Proofs.Connection.Stage

/-!
The balance of demand.

    demand + the unit that a read holds + messages delivered = units granted

`Fair` is this balance, with what there is of the messages and with what keeps the driver going: it
is ready, or it waits for what is not there (`Waits`).  What is done from outside keeps it
(`steady_act`).
-/

namespace WebSocketEngine

variable {σ : Type}

/-! ### What a driver finds -/

/-- What a host has for its driver. -/
structure Host.Desk where
  calls : List Call
  handler : Handler
  attached : Bool
  held : List Ticket
  verdict : Option Outcome
  demand : UInt64
  ready : List Task
  parked : List Task

def Host.desk (h : Host σ) : Host.Desk :=
  ⟨h.calls, h.handler, h.attached, h.held, h.verdict, h.session.demand, h.ready, h.parked⟩

theorem Host.desk_of_sends {P : Frame → Prop} {h k : Host σ} (sends : Host.Sends P h k) :
    k.desk = h.desk := by
  have still (α : Type) (read : Host σ → α) (blind : ∀ l : Host σ, read l.still = read l) :
      read k = read h := by
    rw [← blind k, ← blind h, sends.still]
  have handler : k.handler = h.handler := still _ _ fun _ => rfl
  have held : k.held = h.held := still _ _ fun _ => rfl
  have verdict : k.verdict = h.verdict := still _ _ fun _ => rfl
  have ready : k.ready = h.ready := still _ _ fun _ => rfl
  have parked : k.parked = h.parked := still _ _ fun _ => rfl
  rw [desk, sends.calls, attached, handler, held, verdict, sends.demand, ready, parked]
  rfl

namespace Connection

open Assembly (Carries completes)

/-- What there is of a connection for its driver. -/
structure View where
  phase : Phase
  inbound : List Frame
  ended : Bool
  due : List Instant
  desk : Host.Desk

def view (c : Connection σ) : View :=
  ⟨c.phase, c.inbound, c.ended, c.sweepers.due, c.host.desk⟩

/-- The unit that a read has taken for the frame that it waits for. -/
def Phase.hold : Phase → Nat
  | .reading false => 1
  | .idle | .starting | .opening | .reading true | .serving _ | .finished _ => 0

/-- The driver is ready, or it waits for what is not there. -/
def Waits (desk : Host.Desk) (inbound : List Frame) : Phase → Prop
  | .idle => True
  | .starting => .driver ∈ desk.ready
  | .opening => desk.attached = true ∧ desk.verdict = some (.ok ()) ∧ .driver ∈ desk.ready
  | .serving f => f.closeCode = none ∧
      desk.attached = true ∧ desk.verdict = some (.ok ()) ∧ .driver ∈ desk.ready
  | .reading true => desk.attached = true ∧
      (.driver ∈ desk.ready ∨ .driver ∈ desk.parked ∧ desk.demand = 0)
  | .reading false => desk.attached = true ∧ (.driver ∈ desk.ready ∨ inbound = [])
  | .finished _ => False

section Fair

variable (app : Application σ) (memory : σ) (messages : List Message) (frames : List Frame)

/-- The frames `came` of all `frames` have arrived, and `given` units were granted from outside. -/
structure Fair (came : List Frame) (given : Nat) (v : View) : Prop where
  unended : v.ended = false
  unswept : v.due = []
  ready : ∀ t ∈ v.desk.ready, t = .driver
  parked : ∀ t ∈ v.desk.parked, t = .driver
  held : v.desk.held = []
  /-- What was delivered, what is open, and what is still to be read make up all messages. -/
  progress : ∃ a part rest future, v.desk.handler = .assembling a ∧ a.Represents ⟨false, part⟩ ∧
    Carries part rest (v.inbound ++ future) ∧
    v.desk.calls.filterMap Call.message? ++ rest = messages ∧ came ++ future = frames
  complete : came.countP completes =
    (v.desk.calls.filterMap Call.message?).length + v.inbound.countP completes
  balance : given + app.grants memory v.desk.calls < UInt64.size →
    v.desk.demand.toNat + v.phase.hold + (v.desk.calls.filterMap Call.message?).length =
      given + app.grants memory v.desk.calls
  waits : Waits v.desk v.inbound v.phase

/-- A fair connection, of which no token of the driver is at the writer. -/
structure Steady (came : List Frame) (given : Nat) (c : Connection σ) : Prop where
  fair : Fair app memory messages frames came given c.view
  outbox : ∀ queue, c.host.session.outbox = some queue → ∀ o ∈ queue, o.ticket.sink.Outside
  fetched : ∀ o ∈ c.fetched, o.ticket.sink.Outside

end Fair

/-- The application asks for frames, its messages are taken, and nobody asks for the end. -/
structure Undisturbed (app : Application σ) (messages : List Message) (c : Connection σ) :
    Prop where
  demanding : c.host.session.config.demanding = true
  acceptable : ∀ m ∈ messages, Assembly.Acceptable app.hooks c.host.session.config m
  unaborted : c.host.session.abortReason = none
  going : c.host.shutdown = false

/-! ### From outside -/

/-- The frames that a command lets arrive. -/
def Command.arrivals : Command → List Frame
  | .arrive frames => frames
  | _ => []

/-- The units that a command grants. -/
def Command.granted : Command → Nat
  | .demand n => n.toNat
  | _ => 0

/-- The command takes no demand, does not end the stream and leaves the handler to the driver.
    Sweeps come one by one, as commands of their own. -/
def Command.aside : Command → Bool
  | .takeDemand | .waitForDemand | .endInbound | .startSweeping => false
  | x => !x.atHandler

section Steady

variable {app : Application σ} {memory : σ} {messages : List Message} {frames came : List Frame}
  {given : Nat} {c d : Connection σ}

theorem Steady.waits (steady : Steady app memory messages frames came given c) :
    Waits c.host.desk c.inbound c.phase :=
  steady.fair.waits

theorem Steady.balance (steady : Steady app memory messages frames came given c)
    (room : given + app.grants memory c.host.calls < UInt64.size) :
    c.host.session.demand.toNat + c.phase.hold + c.host.delivered.length =
      given + app.grants memory c.host.calls :=
  steady.fair.balance room

theorem Steady.tidy (steady : Steady app memory messages frames came given c) : c.host.Tidy :=
  ⟨steady.fair.ready, steady.fair.parked, steady.outbox⟩

theorem Steady.same (steady : Steady app memory messages frames came given c)
    (view : d.view = c.view) (tidy : d.host.Tidy)
    (fetched : ∀ o ∈ d.fetched, o.ticket.sink.Outside) :
    Steady app memory messages frames came given d :=
  ⟨view ▸ steady.fair, tidy.outbox, fetched⟩

/-- A driver that is ready waits for nothing. -/
theorem Waits.awake {desk desk' : Host.Desk} {inbound inbound' : List Frame} {phase : Phase}
    (waits : Waits desk inbound phase) (attached : desk'.attached = desk.attached)
    (verdict : desk'.verdict = desk.verdict) (ready : .driver ∈ desk'.ready) :
    Waits desk' inbound' phase := by
  unfold Waits at waits ⊢
  rw [attached, verdict]
  split at waits
  · trivial
  · exact ready
  · exact ⟨waits.1, waits.2.1, ready⟩
  · exact ⟨waits.1, waits.2.1, waits.2.2.1, ready⟩
  · exact ⟨waits.1, .inl ready⟩
  · exact ⟨waits.1, .inl ready⟩
  · exact waits

/-- More frames have arrived, which the driver is told. -/
theorem Fair.arrive {v : View} (fair : Fair app memory messages frames came given v)
    {more : List Frame} (coming : came ++ more <+: frames) :
    Fair app memory messages frames (came ++ more) given
      { v with inbound := v.inbound ++ more
               desk := { v.desk with ready := Host.enqueue v.desk.ready .driver } } := by
  obtain ⟨a, part, rest, future, handler, rep, carried, whole, all⟩ := fair.progress
  obtain ⟨later, eq⟩ := coming
  obtain rfl : future = more ++ later := by
    rw [← all, List.append_assoc] at eq
    exact (List.append_cancel_left eq).symm
  refine { fair with
    ready := fun t mem => (Host.mem_enqueue.mp mem).elim (fair.ready t) fun same => same
    progress := ⟨a, part, rest, later, handler, rep, ?_, whole, ?_⟩
    complete := ?_
    waits := fair.waits.awake rfl rfl (Host.mem_enqueue.mpr (.inr rfl)) }
  · rwa [List.append_assoc]
  · rwa [List.append_assoc]
  · rw [List.countP_append, List.countP_append, fair.complete, Nat.add_assoc]

/-- Units are granted from outside, and whoever waits for one is told. -/
theorem Fair.grant {v : View} (fair : Fair app memory messages frames came given v) (n : UInt64) :
    Fair app memory messages frames came (given + n.toNat)
      { v with desk := { v.desk with
          demand := v.desk.demand + n
          ready := v.desk.parked.foldl Host.enqueue v.desk.ready
          parked := [] } } := by
  refine { fair with
    ready := fun t mem => (Host.mem_foldl_enqueue.mp mem).elim (fair.ready t) (fair.parked t)
    parked := fun t mem => (List.not_mem_nil mem).elim
    balance := fun bound => ?_
    waits := ?_ }
  · dsimp only at bound ⊢
    have before := fair.balance (by omega)
    have room : v.desk.demand.toNat + n.toNat < UInt64.size := by omega
    have sum : (v.desk.demand + n).toNat = v.desk.demand.toNat + n.toNat :=
      (UInt64.toNat_add _ _).trans (Nat.mod_eq_of_lt room)
    omega
  · have waits := fair.waits
    by_cases ready : .driver ∈ v.desk.parked.foldl Host.enqueue v.desk.ready
    · exact waits.awake rfl rfl ready
    · have asleep : .driver ∉ v.desk.ready :=
        fun mem => ready (Host.mem_foldl_enqueue.mpr (.inl mem))
      have unparked : .driver ∉ v.desk.parked :=
        fun mem => ready (Host.mem_foldl_enqueue.mpr (.inr mem))
      -- A driver that neither is ready nor waits for demand waits for a frame.
      dsimp only
      generalize v.phase = phase at waits ⊢
      cases phase with
      | idle => trivial
      | starting => exact (asleep waits).elim
      | opening => exact (asleep waits.2.2).elim
      | serving f => exact (asleep waits.2.2.2).elim
      | finished e => exact waits
      | reading needsUnit =>
        cases needsUnit with
        | true => exact (waits.2.elim asleep fun waiting => unparked waiting.1).elim
        | false => exact ⟨waits.1, .inr (waits.2.resolve_left asleep)⟩

/-- The driver is started. -/
theorem Fair.start {v : View} (fair : Fair app memory messages frames came given v)
    (idle : v.phase = .idle) :
    Fair app memory messages frames came given
      { v with phase := .starting
               desk := { v.desk with ready := Host.enqueue v.desk.ready .driver } } := by
  have balance := fair.balance
  rw [idle] at balance
  exact { fair with
    ready := fun t mem => (Host.mem_enqueue.mp mem).elim (fair.ready t) fun same => same
    balance := balance
    waits := Host.mem_enqueue.mpr (.inr rfl) }

theorem abort_ne_none (h : Host σ) (e : Failure) : (h.abort e).session.abortReason ≠ none := by
  unfold Host.abort
  split
  · next some =>
    rw [some]
    exact Option.some_ne_none _
  · exact Option.some_ne_none _

/-- A sweep changes nothing for the driver unless it aborts the connection. -/
theorem sweep_cases (c : Connection σ) :
    c.sweep.1.view = c.view ∧ c.sweep.1.host.session.outbox = c.host.session.outbox ∧
        c.sweep.1.fetched = c.fetched ∨
      c.sweep.1.host.session.abortReason ≠ none :=
  sweep_preserves
    (I := fun d => d.view = c.view ∧ d.host.session.outbox = c.host.session.outbox ∧
      d.fetched = c.fetched ∨ d.host.session.abortReason ≠ none)
    (fun _ same => same) (fun _ _ same => same) (fun _ _ _ => .inr (abort_ne_none _ _))
    (.inl ⟨rfl, rfl, rfl⟩)

theorem wait_eq (unswept : c.sweepers.due = []) (span : Duration) :
    c.wait app span = { c with host := { c.host with now := c.host.now + span.nanos } } := by
  have none : c.sweepers.dueUntil c.supervisor.rest (c.host.now + span.nanos) = 0 := by
    rw [Idle.Sweepers.dueUntil, unswept]
    rfl
  unfold wait
  dsimp only
  rw [none]
  rfl

theorem desk_dropWriter (outbox : ∀ queue, c.host.session.outbox = some queue →
      ∀ o ∈ queue, o.ticket.sink.Outside)
    (fetched : ∀ o ∈ c.fetched, o.ticket.sink.Outside) :
    c.dropWriter.1.host.desk = c.host.desk ∧
      (c.host.Tidy → c.dropWriter.1.host.Tidy) := by
  have outside : ∀ o ∈ c.host.session.outbox.getD [] ++ c.fetched, o.ticket.sink.Outside := by
    intro o mem
    rcases List.mem_append.mp mem with queued | mem
    · cases writer : c.host.session.outbox with
      | none => rw [writer] at queued; cases queued
      | some queue => rw [writer] at queued; exact outbox queue writer o queued
    · exact fetched o mem
  have sends := Host.sends_foldl_drop (P := fun _ => False) outside
    { c.host with session := { c.host.session with outbox := none } }
  exact ⟨(Host.desk_of_sends sends :),
    fun tidy => sends.tidy ⟨tidy.ready, tidy.parked, fun _ none => nomatch none⟩⟩

/-- A host that only sends, and tokens that leave the writer, change nothing for the driver. -/
theorem Steady.sends (steady : Steady app memory messages frames came given c)
    {P : Frame → Prop} {h : Host σ} (sends : Host.Sends P c.host h)
    (view : d.view = { c with host := h }.view) (host : d.host = h)
    (fetched : ∀ o ∈ d.fetched, o ∈ c.fetched) :
    Steady app memory messages frames came given d := by
  refine steady.same (view.trans ?_) (by rw [host]; exact sends.tidy steady.tidy)
    fun o mem => steady.fetched o (fetched o mem)
  unfold Connection.view
  rw [Host.desk_of_sends sends]

theorem Steady.still (steady : Steady app memory messages frames came given c)
    (view : d.view = c.view) (outbox : d.host.session.outbox = c.host.session.outbox)
    (fetched : d.fetched = c.fetched) : Steady app memory messages frames came given d :=
  ⟨view ▸ steady.fair, outbox ▸ steady.outbox, fetched ▸ steady.fetched⟩

theorem steady_write (steady : Steady app memory messages frames came given c)
    (how : Completion.Release) : Steady app memory messages frames came given (c.write how).1 := by
  unfold write
  split
  · next o rest fetched =>
    have outside : o.ticket.sink.Outside := steady.fetched o (by simp [fetched])
    exact steady.sends (Host.sends_resolve (P := fun _ => False) c.host outside how.outcome) rfl
      rfl fun p mem => by rw [fetched]; exact List.mem_cons_of_mem _ mem
  · exact steady

theorem steady_dropWriter (steady : Steady app memory messages frames came given c) :
    Steady app memory messages frames came given c.dropWriter.1 := by
  obtain ⟨desk, dropped⟩ := desk_dropWriter steady.outbox steady.fetched
  refine steady.same ?_ (dropped steady.tidy) fun _ mem => (List.not_mem_nil mem).elim
  have view : c.dropWriter.1.view = { c.view with desk := c.dropWriter.1.host.desk } := rfl
  rw [view, desk]
  rfl

theorem steady_arrive (steady : Steady app memory messages frames came given c)
    {more : List Frame} (coming : came ++ more <+: frames) :
    Steady app memory messages frames (came ++ more) given (c.arrive more).1 := by
  cases more with
  | nil => rwa [List.append_nil]
  | cons f more =>
    have unended : c.ended = false := steady.fair.unended
    have arrived : (c.arrive (f :: more)).1 =
        { c with inbound := c.inbound ++ f :: more, host := c.host.wake .driver } := by
      unfold arrive
      dsimp only [List.isEmpty_cons]
      rw [if_neg Bool.false_ne_true, if_neg (by rw [unended]; exact Bool.false_ne_true)]
      split
      · next e gone =>
        have waits := steady.waits
        rw [gone] at waits
        exact waits.elim
      all_goals rfl
    rw [arrived]
    exact ⟨steady.fair.arrive coming, steady.outbox, steady.fetched⟩

/-- What is done from outside keeps the balance. -/
theorem steady_act (steady : Steady app memory messages frames came given c) {x : Command}
    (aside : x.aside = true) (coming : came ++ x.arrivals <+: frames)
    (undisturbed : Undisturbed app messages (c.act app x).1) :
    Steady app memory messages frames (came ++ x.arrivals) (given + x.granted)
      (c.act app x).1 := by
  have plain {g : Nat} {d : Connection σ} (s : Steady app memory messages frames came g d) :
      Steady app memory messages frames (came ++ []) g d := by
    rwa [List.append_nil]
  have offering (sending : x.sends = true) :
      Steady app memory messages frames came given (c.act app x).1 := by
    obtain ⟨h, sends, acted⟩ := act_of_sends app c sending
    rw [acted]
    exact steady.sends sends rfl rfl fun _ mem => mem
  cases x with
  | send | close | sendMessage | handlerSend => exact plain (offering rfl)
  | demand n => exact plain ⟨steady.fair.grant n, steady.outbox, steady.fetched⟩
  | abort e => exact (abort_ne_none c.host e undisturbed.unaborted).elim
  | shutdown => exact (Bool.noConfusion (undisturbed.going : true = false))
  | setIdleTimeout _ | change _ | checkIdle | touch => exact plain (steady.still rfl rfl rfl)
  | wait span =>
    have waited : (c.act app (.wait span)).1 =
        { c with host := { c.host with now := c.host.now + span.nanos } } :=
      wait_eq steady.fair.unswept span
    rw [waited]
    exact plain (steady.still rfl rfl rfl)
  | sweep =>
    rcases sweep_cases c with ⟨view, outbox, fetched⟩ | aborted
    · exact plain (steady.still view outbox fetched)
    · exact (aborted undisturbed.unaborted).elim
  | write how => exact plain (steady_write steady how)
  | dropWriter => exact plain (steady_dropWriter steady)
  | releaseHeld index how =>
    have unheld : c.host.held = [] := steady.fair.held
    rcases releaseHeld_cases app c index how with none | ⟨t, kept, -⟩
    · rw [none]
      exact plain steady
    · rw [unheld] at kept
      cases kept
  | start detached =>
    rcases start_cases app c detached with none | ⟨idle, started⟩
    · rw [none]
      exact plain steady
    · rw [started]
      exact plain ⟨steady.fair.start idle, steady.outbox, steady.fetched⟩
  | arrive more => exact steady_arrive steady coming
  | takeDemand | waitForDemand | endInbound | startSweeping => cases aside
  | handOpening | handFrame _ | handFailure _ | handClosed _ => cases aside

theorem steady_fetch (steady : Steady app memory messages frames came given c) :
    Steady app memory messages frames came given c.fetch := by
  have noted : ∀ (queue : List Outbound) (h : Host σ),
      (queue.foldl (fun h o => h.note (.fetched o.frame o.batch)) h).desk = h.desk ∧
        (queue.foldl (fun h o => h.note (.fetched o.frame o.batch)) h).session.outbox =
          h.session.outbox := by
    intro queue
    induction queue with
    | nil => exact fun h => ⟨rfl, rfl⟩
    | cons o queue ih =>
      intro h
      have one : (h.note (.fetched o.frame o.batch)).desk = h.desk := by
        have calls : (h.note (.fetched o.frame o.batch)).calls = h.calls :=
          (Host.record_note _ h _).trans (List.append_nil _)
        rw [Host.desk, calls]
        rfl
      exact ⟨(ih _).1.trans one, (ih _).2⟩
  unfold fetch
  split
  · exact steady
  · next queue writer =>
    obtain ⟨desk, outbox⟩ :=
      noted queue { c.host with session := { c.host.session with outbox := some [] } }
    refine ⟨?_, fun after eq o mem => ?_, fun o mem => ?_⟩
    · unfold view
      dsimp only
      rw [desk]
      exact steady.fair
    · obtain rfl : [] = after := Option.some.inj (outbox.symm.trans eq)
      cases mem
    · exact (List.mem_append.mp mem).elim (steady.fetched o) (steady.outbox queue writer o)

end Steady

end Connection

end WebSocketEngine
