import WebSocketEngine.Host.Events

/-!
What sending does to a host, and what it leaves alone.

The record of a host is read through `calls`, `events` and `accepted`.  `Sends` is what becomes of a
host while frames are offered for anybody but the driver: work is settled, frames are accepted, and
frames are lost where the writer is gone.  All that follows about sending follows from these steps.
-/

namespace WebSocketEngine

/-! ### Where tokens lead -/

/-- Who hears of a token in the end. -/
def Completion.Token.sink {κ : Type} : Completion.Token κ → κ
  | .root s => s
  | .derived t => t.sink
  | .part _ t => t.sink

theorem Completion.Ledger.resolve_sink {κ : Type} (l : Completion.Ledger) (t : Completion.Token κ)
    (o : Outcome) :
    (l.resolve t o).2 = none ∨ ∃ whole, (l.resolve t o).2 = some (t.sink, whole) := by
  induction t generalizing l o with
  | root s => exact .inr ⟨o, rfl⟩
  | derived t ih => exact ih l o
  | part n t ih =>
    rw [Completion.Ledger.resolve]
    split
    · exact .inl rfl
    · next l' whole _ => exact ih l' whole

theorem Completion.Ledger.split_sink {κ : Type} (l : Completion.Ledger) (t : Completion.Token κ)
    (count : Nat) :
    (∀ p ∈ (l.split t count).2.1, p.sink = t.sink) ∧
      ((l.split t count).2.2 = none ∨ ∃ whole, (l.split t count).2.2 = some (t.sink, whole)) := by
  unfold Completion.Ledger.split
  split
  · exact ⟨by simp, l.resolve_sink t (.ok ())⟩
  · refine ⟨fun p hp => ?_, .inl rfl⟩
    rw [(List.mem_replicate.mp hp).2]
    rfl

/-- The work is not the driver's. -/
def Sink.Outside : Sink → Prop
  | .driver _ => False
  | .silent | .caller _ => True

/-! ### Reading the record -/

def Note.call? : Note → Option Call
  | .called c => some c
  | _ => none

def Note.event? : Note → Option Call
  | .handed c => some c
  | _ => none

def Note.frame? : Note → Option Frame
  | .accepted f _ => some f
  | _ => none

namespace Host

variable {σ : Type}

/-- What `read` finds in the record, the first entry first. -/
def record {α : Type} (read : Note → Option α) (h : Host σ) : List α :=
  (h.journal.filterMap read).reverse

/-- The calls of the application. -/
abbrev calls (h : Host σ) : List Call := h.record Note.call?

/-- The events that the handler was given. -/
abbrev events (h : Host σ) : List Call := h.record Note.event?

/-- The frames that were accepted for sending. -/
abbrev accepted (h : Host σ) : List Frame := h.record Note.frame?

theorem record_note {α : Type} (read : Note → Option α) (h : Host σ) (n : Note) :
    (h.note n).record read = h.record read ++ (read n).toList := by
  simp only [record, note, List.filterMap_cons]
  cases read n <;> simp

/-! ### Steps of sending -/

/-- The writer's queue takes a frame. -/
def accept (h : Host σ) (out : Outbound) (queue : List Outbound) : Host σ :=
  (({ h with session := { h.session with
      closeSent := out.frame.op = OpCode.close
      tracker := h.session.tracker.touch h.now
      outbox := some (queue ++ [out]) } }).count .outbound).note (.accepted out.frame out.batch)

/-- A frame is lost, for the writer is gone. -/
def lose (h : Host σ) (f : Frame) : Host σ :=
  { h with session := { h.session with
      closeSent := f.op = OpCode.close
      tracker := h.session.tracker.touch h.now } }

/-- What frames with the property `P` and their tokens, none of which is the driver's, do to a
    host. -/
inductive Sends (P : Frame → Prop) (h : Host σ) : Host σ → Prop
  | refl : Sends P h h
  | book {k : Host σ} (ledger : Completion.Ledger) : Sends P h k → Sends P h { k with ledger }
  | settle {k : Host σ} (caller : Nat) (o : Outcome) :
    Sends P h k → Sends P h (k.note (.settled caller o))
  | accept {k : Host σ} {out : Outbound} {queue : List Outbound} :
    Sends P h k → k.session.closeSent = false → k.session.outbox = some queue → P out.frame →
      out.ticket.sink.Outside → Sends P h (k.accept out queue)
  | lose {k : Host σ} {f : Frame} :
    Sends P h k → k.session.closeSent = false → k.session.outbox = none → P f →
      Sends P h (k.lose f)

theorem Sends.trans {P : Frame → Prop} {h k l : Host σ} (a : Sends P h k) (b : Sends P k l) :
    Sends P h l := by
  induction b with
  | refl => exact a
  | book ledger _ ih => exact .book ledger ih
  | settle caller o _ ih => exact .settle caller o ih
  | accept _ unsent queue frame outside ih => exact .accept ih unsent queue frame outside
  | lose _ unsent gone frame ih => exact .lose ih unsent gone frame

theorem Sends.mono {P Q : Frame → Prop} (le : ∀ f, P f → Q f) {h k : Host σ} (a : Sends P h k) :
    Sends Q h k := by
  induction a with
  | refl => exact .refl
  | book ledger _ ih => exact .book ledger ih
  | settle caller o _ ih => exact .settle caller o ih
  | accept _ unsent queue frame outside ih => exact .accept ih unsent queue (le _ frame) outside
  | lose _ unsent gone frame ih => exact .lose ih unsent gone (le _ frame)

theorem sends_deliver {P : Frame → Prop} (h : Host σ) {s : Sink} (outside : s.Outside)
    {d : Option (Completion.Delivery Sink)} (hd : d = none ∨ ∃ o, d = some (s, o)) :
    Sends P h (h.deliver d) := by
  rcases hd with rfl | ⟨o, rfl⟩
  · exact .refl
  · cases s with
    | silent => exact .refl
    | caller n => exact .settle n o .refl
    | driver n => exact outside.elim

theorem sends_resolve {P : Frame → Prop} (h : Host σ) {t : Ticket} (outside : t.sink.Outside)
    (o : Outcome) : Sends P h (h.resolve t o) :=
  (Sends.book _ .refl).trans (sends_deliver _ outside (h.ledger.resolve_sink t o))

/-- Tokens are dropped one after another. -/
theorem sends_foldl_drop {P : Frame → Prop} {left : List Outbound}
    (outside : ∀ o ∈ left, o.ticket.sink.Outside) (h : Host σ) :
    Sends P h (left.foldl (fun h o => h.drop o.ticket) h) := by
  induction left generalizing h with
  | nil => exact .refl
  | cons o left ih =>
    exact (sends_resolve h (outside o (by simp)) _).trans
      (ih (fun p mem => outside p (by simp [mem])) _)

theorem send_of_closed (h : Host σ) {f : Frame} {t : Ticket} {batch : Bool}
    (closed : h.session.closeSent = true) :
    h.send f t batch = h.resolve t (.error Session.alreadyClosed) := by
  simp [send, Session.offer, closed]

theorem send_of_open (h : Host σ) {f : Frame} {t : Ticket} {batch : Bool} {queue : List Outbound}
    (unsent : h.session.closeSent = false) (writer : h.session.outbox = some queue) :
    h.send f t batch = h.accept ⟨f, t, batch⟩ queue := by
  simp [send, Session.offer, unsent, writer, accept]

theorem send_of_gone (h : Host σ) {f : Frame} {t : Ticket} {batch : Bool}
    (unsent : h.session.closeSent = false) (gone : h.session.outbox = none) :
    h.send f t batch = (h.lose f).resolve t (.error Session.writerGone) := by
  simp [send, Session.offer, unsent, gone, lose]

theorem sends_send {P : Frame → Prop} (h : Host σ) {f : Frame} (hf : P f) {t : Ticket}
    (outside : t.sink.Outside) (batch : Bool) : Sends P h (h.send f t batch) := by
  cases unsent : h.session.closeSent with
  | true =>
    rw [send_of_closed h unsent]
    exact sends_resolve h outside _
  | false =>
    cases writer : h.session.outbox with
    | some queue =>
      rw [send_of_open h unsent writer]
      exact .accept .refl unsent writer hf outside
    | none =>
      rw [send_of_gone h unsent writer]
      exact (Sends.lose .refl unsent writer hf).trans (sends_resolve _ outside _)

theorem sends_foldl_send {P : Frame → Prop} (h : Host σ) {parts : List (Frame × Ticket)}
    (batch : Bool) (hp : ∀ p ∈ parts, P p.1 ∧ p.2.sink.Outside) :
    Sends P h (parts.foldl (fun h p => h.send p.1 p.2 (batch || !p.1.fin)) h) := by
  induction parts generalizing h with
  | nil => exact .refl
  | cons p parts ih =>
    obtain ⟨frame, outside⟩ := hp p (by simp)
    exact (sends_send h frame outside _).trans (ih _ fun q hq => hp q (by simp [hq]))

theorem sends_sendMessage {P : Frame → Prop} (h : Host σ) {kind : MessageKind} {chunks : List Bytes}
    (hf : ∀ f ∈ Assembly.fragments kind chunks, P f) {t : Ticket} (outside : t.sink.Outside)
    (batch : Bool) : Sends P h (h.sendMessage kind chunks t batch) := by
  obtain ⟨parts, delivery⟩ := h.ledger.split_sink t (Assembly.fragments kind chunks).length
  refine ((Sends.book _ .refl).trans (sends_deliver _ outside delivery)).trans
    (sends_foldl_send _ batch ?_)
  intro p hp
  obtain ⟨frame, part⟩ := List.of_mem_zip hp
  exact ⟨hf _ frame, by rw [parts _ part]; exact outside⟩

/-! ### What sending leaves alone -/

/-- The host with everything blank that sending may change. -/
def still (h : Host σ) : Host σ :=
  { h with
    session := { h.session with closeSent := false, tracker := .start 0, outbox := none }
    ledger := .empty
    house := { h.house with metrics := .zero }
    journal := [] }

theorem Sends.still {P : Frame → Prop} {h k : Host σ} (s : Sends P h k) : k.still = h.still := by
  induction s with
  | refl => rfl
  | book _ _ ih => exact ih
  | settle _ _ _ ih => exact ih
  | accept _ _ _ _ _ ih => exact ih
  | lose _ _ _ _ ih => exact ih

theorem Sends.config {P : Frame → Prop} {h k : Host σ} (s : Sends P h k) :
    k.session.config = h.session.config :=
  congrArg (·.session.config) s.still

theorem Sends.demand {P : Frame → Prop} {h k : Host σ} (s : Sends P h k) :
    k.session.demand = h.session.demand :=
  congrArg (·.session.demand) s.still

/-- A reading that passes over settled work and accepted frames finds nothing new. -/
theorem Sends.record {P : Frame → Prop} {h k : Host σ} (s : Sends P h k) {α : Type}
    {read : Note → Option α} (settled : ∀ n o, read (.settled n o) = none)
    (accepted : ∀ f batch, read (.accepted f batch) = none) : k.record read = h.record read := by
  induction s with
  | refl => rfl
  | book _ _ ih => exact ih
  | settle n o _ ih => rw [record_note, settled, ih]; exact List.append_nil _
  | accept _ _ _ _ _ ih =>
    rw [Host.accept, record_note, accepted]
    exact (List.append_nil _).trans ih
  | lose _ _ _ _ ih => exact ih

theorem Sends.calls {P : Frame → Prop} {h k : Host σ} (s : Sends P h k) : k.calls = h.calls :=
  s.record (fun _ _ => rfl) fun _ _ => rfl

theorem Sends.events {P : Frame → Prop} {h k : Host σ} (s : Sends P h k) : k.events = h.events :=
  s.record (fun _ _ => rfl) fun _ _ => rfl

end Host

end WebSocketEngine
