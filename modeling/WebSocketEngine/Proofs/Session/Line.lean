import WebSocketEngine.Connection.Basic
import WebSocketEngine.Proofs.Session.Calls
import Mathlib.Data.List.Perm.Basic

/-!
The line from a session to its writer.

Anybody sends frames and messages; the writer receives what was accepted, lets go of what it has
received, and may go away.  Every caller's completion may call back, and what it then does comes
before all else that is left to do:

    send, close, sendMessage ──▶ queue ──▶ receive ──▶ received ──▶ settle
                │                  └── hangUp ──▶ dropped, one by one
                └── refused, if a CLOSE was sent or the writer is gone

What is left to do stands on the agenda: the deeds of callbacks, and the frames that a lost writer
drops.
-/

namespace WebSocketEngine

open Completion (Ledger Token Split Release)

/-! ### Deeds -/

inductive Deed
  | send (frame : Frame) (batch : Bool)
  | close (code : CloseCode) (reason : String)
  | sendMessage (kind : MessageKind) (chunks : List Bytes) (batch : Bool)
  /-- The writer receives the next frame. -/
  | receive
  /-- The writer lets go of a token that it has received. -/
  | settle (index : Nat) (how : Release)
  /-- The writer goes away. -/
  | hangUp

/-- Something that is left to do. -/
inductive Piece
  | deed (d : Deed)
  /-- A frame that was in the queue of a lost writer is dropped. -/
  | drop (t : Ticket)

def Piece.ticket? : Piece → Option Ticket
  | deed _ => none
  | drop t => some t

structure Line (σ : Type) where
  host : Host σ
  /-- What the writer has received and not let go of. -/
  received : List Outbound
  /-- What is left to do, the next piece first. -/
  agenda : List Piece
  /-- The calls so far. -/
  calls : List Sent
  /-- What became of the tokens of accepted frames. -/
  answers : List (Ticket × Outcome)

namespace Line

variable {σ : Type}

def start (h : Host σ) : Line σ := ⟨h, [], [], [], []⟩

/-- A call with some frames, each of which will carry a token like the given one. -/
def call (l : Line σ) (frames : List (Frame × Bool)) (ticket : Ticket) (f : Host σ → Host σ) :
    Line σ :=
  let s := l.host.session
  { l with
    host := f l.host
    calls := l.calls ++ [⟨frames, ticket, !s.closeSent && s.outbox.isSome, s.outbox.isNone⟩] }

/-- A token of an accepted frame is let go of. -/
def answer (l : Line σ) (t : Ticket) (how : Release) : Line σ :=
  { l with host := l.host.resolve t how.outcome, answers := l.answers ++ [(t, how.outcome)] }

/-- The writer goes away. -/
def hangUp (l : Line σ) : Line σ :=
  { l with
    host := { l.host with session := { l.host.session with outbox := none } }
    agenda := (l.host.session.outbox.getD []).map (fun o => .drop o.ticket) ++ l.agenda }

/-- The writer receives the next frame. -/
def receive (l : Line σ) : Line σ :=
  match l.host.session.outbox with
  | some (o :: queue) =>
    let session := { l.host.session with outbox := some queue }
    { l with
      host := { l.host with session }.note (.fetched o.frame o.batch)
      received := l.received ++ [o] }
  | some [] | none => l

/-- The token that the next caller waits for. -/
def root (l : Line σ) : Ticket := .root (.caller l.calls.length)

def perform (l : Line σ) : Deed → Line σ
  | .send f batch => l.call [(f, batch)] l.root (·.send f l.root batch)
  | .close code reason => l.call [(.close code reason, false)] l.root (·.close code reason l.root)
  | .sendMessage kind chunks batch =>
    l.call ((Assembly.fragments kind chunks).map fun f => (f, batch || !f.fin))
      (.part l.host.ledger.splits.length l.root) (·.sendMessage kind chunks l.root batch)
  | .receive => l.receive
  | .settle i how =>
    match l.received[i]? with
    | some o => { l with received := l.received.eraseIdx i }.answer o.ticket how
    | none => l
  | .hangUp => l.hangUp

/-! ### Callbacks -/

/-- What the completion of each caller does when it is resolved. -/
abbrev Callback := Nat → Outcome → List Deed

/-- The callbacks of those who have heard their outcome since `l`, before all else. -/
def callBack (callback : Callback) (l m : Line σ) : Line σ :=
  { m with
    agenda := ((m.host.outcomes.drop l.host.outcomes.length).flatMap fun x =>
      (callback x.1 x.2).map .deed) ++ m.agenda }

inductive Event
  /-- Somebody does something. -/
  | deed (d : Deed)
  /-- The next piece of the agenda is done. -/
  | next

def step (callback : Callback) (l : Line σ) : Event → Line σ
  | .deed d => callBack callback l (l.perform d)
  | .next =>
    match l.agenda with
    | [] => l
    | .deed d :: agenda => callBack callback l ({ l with agenda }.perform d)
    | .drop t :: agenda => callBack callback l ({ l with agenda }.answer t .drop)

def run (callback : Callback) (l : Line σ) (events : List Event) : Line σ :=
  events.foldl (step callback) l

/-! ### Reading the line -/

/-- The tokens of accepted frames that nobody has let go of. -/
def outstanding (l : Line σ) : List Ticket :=
  (l.host.session.outbox.getD []).map (·.ticket) ++ l.received.map (·.ticket) ++
    l.agenda.filterMap Piece.ticket?

/-- The books of the line. -/
def books (l : Line σ) : Books where
  calls := l.calls
  ledger := l.host.ledger
  outstanding := l.outstanding
  answers := l.answers
  heard := l.host.outcomes

end Line

/-! ### What is kept -/

/-- The call offers a CLOSE. -/
def Sent.closes (c : Sent) : Bool := c.frames.any fun p => p.1.op = .close

theorem Sent.closes_eq_false_iff {c : Sent} :
    c.closes = false ↔ ∀ p ∈ c.frames, p.1.op ≠ .close := by
  simp only [closes, List.any_eq_false, decide_eq_true_eq, ne_eq]

namespace Line

/-- What every step keeps. -/
structure Kept (l : Line σ) : Prop where
  balanced : l.books.Balanced
  /-- Calls are taken as a whole, in their order. -/
  sent : l.host.sent = (l.calls.filter (·.taken)).flatMap (·.frames)
  got : l.host.got <+: l.host.sent
  queue : ∀ queue, l.host.session.outbox = some queue →
    l.host.sent = l.host.got ++ queue.map fun o => (o.frame, o.batch)
  closeSent : l.host.session.closeSent = l.calls.any (·.closes)
  taken : ∀ (n : Nat) (c : Sent), l.calls[n]? = some c →
    c.taken = (!(l.calls.take n).any (·.closes) && !c.gone)
  /-- Nothing follows a CLOSE. -/
  last : (∀ p ∈ l.host.sent, p.1.op ≠ .close) ∨ l.host.session.closeSent = true ∧
    ∃ fs p, l.host.sent = fs ++ [p] ∧ ∀ q ∈ fs, q.1.op ≠ .close

variable {l : Line σ}

/-! ### Calls -/

section Call

variable {frames : List (Frame × Bool)} {ticket : Ticket} {f : Host σ → Host σ}
  {extra : List Split}

theorem Kept.taken_call (kept : Kept l) (n : Nat) (d : Sent)
    (call : (l.call frames ticket f).calls[n]? = some d) :
    d.taken = (!((l.call frames ticket f).calls.take n).any (·.closes) && !d.gone) := by
  rcases Completion.getElem?_concat_cases call with before | ⟨rfl, rfl⟩
  · have early : n ≤ l.calls.length := (List.getElem?_eq_some_iff.mp before).1.le
    rw [Line.call, List.take_append_of_le_length early]
    exact kept.taken n d before
  · rw [Line.call, List.take_left', ← kept.closeSent]
    dsimp only
    cases l.host.session.outbox <;> rfl
    rfl

/-- Where a call is taken, all of its tokens become outstanding. -/
theorem outstanding_take {queue : List Outbound} (writer : l.host.session.outbox = some queue)
    (takes : Host.Takes l.host (f l.host) frames ticket queue extra) :
    (List.replicate frames.length ticket ++ l.outstanding).Perm
      (l.call frames ticket f).outstanding := by
  have tickets : (f l.host).session.outbox.getD [] =
      queue ++ frames.map fun p => ⟨p.1, ticket, p.2⟩ := by
    rw [takes.outbox]
    rfl
  have row : (frames.map fun p => (⟨p.1, ticket, p.2⟩ : Outbound)).map (·.ticket) =
      List.replicate frames.length ticket := by
    simp [Function.comp_def]
  rw [outstanding, outstanding, writer, Line.call, tickets, List.map_append, row,
    ← List.append_assoc, ← List.append_assoc]
  exact (List.perm_append_comm.append_right _).append_right _

theorem Kept.take (kept : Kept l) {queue : List Outbound}
    (single : ∀ p ∈ frames, p.1.op = .close → frames = [p])
    (leads : ∀ (ledger : Ledger) (taken gone : Bool),
      ledger.splits.length = l.host.ledger.splits.length + extra.length →
        Books.Leads ledger l.calls.length ⟨frames, ticket, taken, gone⟩)
    (fresh : ∀ s t, ticket = .part s t →
      s = l.host.ledger.splits.length ∧ extra = [⟨frames.length, none⟩])
    (unsent : l.host.session.closeSent = false) (writer : l.host.session.outbox = some queue)
    (takes : Host.Takes l.host (f l.host) frames ticket queue extra) :
    Kept (l.call frames ticket f) := by
  have taken : (l.call frames ticket f).calls = l.calls ++ [⟨frames, ticket, true, false⟩] := by
    rw [Line.call, unsent, writer]
    rfl
  have unclosed (p : Frame × Bool) (mem : p ∈ l.host.sent) : p.1.op ≠ .close := by
    rcases kept.last with unclosed | ⟨sent, -⟩
    · exact unclosed p mem
    · rw [unsent] at sent
      cases sent
  have length : (f l.host).ledger.splits.length = l.host.ledger.splits.length + extra.length := by
    rw [takes.ledger, List.length_append]
  refine
    { balanced := ?_
      sent := ?_
      got := ?_
      queue := fun q writer' => ?_
      closeSent := ?_
      taken := kept.taken_call
      last := ?_ }
  · have entered := kept.balanced.enter (c := ⟨frames, ticket, true, false⟩) frames.length []
      (length ▸ Nat.le_add_right _ _)
      (fun s old => by rw [takes.ledger]; exact List.getElem?_append_left old)
      (leads (f l.host).ledger _ _ length) (fun s t part => (fresh s t part).1.ge)
      (fun _ => ⟨rfl, rfl, fun s t part => ?_⟩) (fun untaken => nomatch untaken)
    · have balanced := entered.perm _ (outstanding_take writer takes)
      have heard : (l.call frames ticket f).host.outcomes = l.host.outcomes ++ [] :=
        takes.outcomes.trans (List.append_nil _).symm
      rw [books, taken, heard]
      exact balanced
    · obtain ⟨rfl, rfl⟩ := fresh s t part
      rw [takes.ledger]
      exact List.getElem?_concat_length
  · rw [taken, List.filter_append, List.flatMap_append, ← kept.sent]
    exact takes.sent.trans (congrArg _ (List.append_nil _).symm)
  · show (f l.host).got <+: (f l.host).sent
    rw [takes.got, takes.sent]
    exact kept.got.trans (List.prefix_append _ _)
  · have writer' : (f l.host).session.outbox = some q := writer'
    rw [takes.outbox] at writer'
    cases writer'
    show (f l.host).sent = (f l.host).got ++ _
    rw [takes.sent, takes.got, kept.queue queue writer, List.map_append, List.append_assoc,
      List.map_map]
    exact congrArg _ (congrArg _ (List.map_id _).symm)
  · rw [taken, List.any_append, ← kept.closeSent, unsent]
    exact takes.closeSent.trans (by simp [Sent.closes])
  · show (∀ p ∈ (f l.host).sent, _) ∨ (f l.host).session.closeSent = true ∧
      ∃ fs p, (f l.host).sent = fs ++ [p] ∧ _
    rw [takes.sent, takes.closeSent]
    by_cases close : ∃ p ∈ frames, p.1.op = .close
    · obtain ⟨p, mem, op⟩ := close
      rw [single p mem op]
      exact .inr ⟨by simp [op], l.host.sent, p, rfl, unclosed⟩
    · refine .inl fun p mem => ?_
      rcases List.mem_append.mp mem with old | mine
      · exact unclosed p old
      · exact fun op => close ⟨p, mine, op⟩

theorem Kept.refuse (kept : Kept l)
    (leads : ∀ (ledger : Ledger) (taken gone : Bool),
      ledger.splits.length = l.host.ledger.splits.length + extra.length →
        Books.Leads ledger l.calls.length ⟨frames, ticket, taken, gone⟩)
    (fresh : ∀ s t, ticket = .part s t →
      s = l.host.ledger.splits.length ∧ extra = [⟨frames.length, none⟩])
    (shut : l.host.Shut)
    (refuses : Host.Refuses l.host (f l.host) l.calls.length frames extra.length) :
    Kept (l.call frames ticket f) := by
  have refused : (!l.host.session.closeSent && l.host.session.outbox.isSome) = false := by
    rcases shut with closed | gone
    · rw [closed]
      rfl
    · rw [gone, Option.isSome_none, Bool.and_false]
  have untaken : (l.call frames ticket f).calls =
      l.calls ++ [⟨frames, ticket, false, l.host.session.outbox.isNone⟩] := by
    rw [Line.call, refused]
  obtain ⟨reason, outcomes⟩ := refuses.outcomes
  refine
    { balanced := ?_
      sent := ?_
      got := ?_
      queue := fun q writer' => ?_
      closeSent := ?_
      taken := kept.taken_call
      last := ?_ }
  · have entered := kept.balanced.enter
      (c := ⟨frames, ticket, false, l.host.session.outbox.isNone⟩) 0 [.error (.transport reason)]
      (refuses.length ▸ Nat.le_add_right _ _) refuses.ledger (leads _ _ _ refuses.length)
      (fun s t part => (fresh s t part).1.ge) (fun taken => nomatch taken)
      (fun _ => ⟨rfl, reason, rfl⟩)
    have tokens : (l.call frames ticket f).outstanding = l.outstanding := by
      rw [outstanding, outstanding, Line.call, refuses.outbox]
    have heard : (l.call frames ticket f).host.outcomes =
        l.host.outcomes ++ [(l.calls.length, .error (.transport reason))] := outcomes
    rw [books, untaken, heard, tokens]
    exact entered
  · rw [untaken, List.filter_append, List.flatMap_append, ← kept.sent]
    exact refuses.sent.trans (List.append_nil _).symm
  · show (f l.host).got <+: (f l.host).sent
    rw [refuses.got, refuses.sent]
    exact kept.got
  · have writer : (f l.host).session.outbox = some q := writer'
    show (f l.host).sent = (f l.host).got ++ _
    rw [refuses.sent, refuses.got]
    exact kept.queue q (refuses.outbox.symm.trans writer)
  · rw [untaken, List.any_append, ← kept.closeSent]
    exact refuses.closeSent.trans (by simp [Sent.closes])
  · show (∀ p ∈ (f l.host).sent, _) ∨ (f l.host).session.closeSent = true ∧
      ∃ fs p, (f l.host).sent = fs ++ [p] ∧ _
    rw [refuses.sent, refuses.closeSent]
    exact kept.last.imp_right (And.imp_left fun closed => by rw [closed]; rfl)

/-- Any call, if it does what it has to where it is taken and where it is refused. -/
theorem Kept.call (kept : Kept l) (extra : List Split)
    (single : ∀ p ∈ frames, p.1.op = .close → frames = [p])
    (leads : ∀ (ledger : Ledger) (taken gone : Bool),
      ledger.splits.length = l.host.ledger.splits.length + extra.length →
        Books.Leads ledger l.calls.length ⟨frames, ticket, taken, gone⟩)
    (fresh : ∀ s t, ticket = .part s t →
      s = l.host.ledger.splits.length ∧ extra = [⟨frames.length, none⟩])
    (takes : ∀ queue, l.host.session.closeSent = false → l.host.session.outbox = some queue →
      Host.Takes l.host (f l.host) frames ticket queue extra)
    (refuses : l.host.Shut → Host.Refuses l.host (f l.host) l.calls.length frames extra.length) :
    Kept (l.call frames ticket f) := by
  cases closeSent : l.host.session.closeSent with
  | true => exact kept.refuse leads fresh (.inl closeSent) (refuses (.inl closeSent))
  | false =>
    cases writer : l.host.session.outbox with
    | none => exact kept.refuse leads fresh (.inr writer) (refuses (.inr writer))
    | some queue =>
      exact kept.take single leads fresh closeSent writer (takes queue closeSent writer)

end Call

theorem Kept.send (kept : Kept l) (f : Frame) (batch : Bool) :
    Kept (l.call [(f, batch)] l.root (·.send f l.root batch)) :=
  kept.call []
    (fun p mem _ => by rw [List.mem_singleton.mp mem])
    (fun _ _ _ _ => .inl ⟨rfl, rfl⟩)
    (fun _ _ part => nomatch part)
    (fun _ unsent writer => Host.takes_send unsent writer f l.root batch)
    fun shut => Host.refuses_send shut f l.calls.length batch

theorem Kept.sendMessage (kept : Kept l) (kind : MessageKind) (chunks : List Bytes)
    (batch : Bool) :
    Kept (l.call ((Assembly.fragments kind chunks).map fun f => (f, batch || !f.fin))
      (.part l.host.ledger.splits.length l.root) (·.sendMessage kind chunks l.root batch)) := by
  have nonempty := Assembly.fragments_ne_nil kind chunks
  refine kept.call [⟨(Assembly.fragments kind chunks).length, none⟩]
    (fun p mem close => ?_) (fun ledger _ _ length => .inr ⟨_, rfl, ?_, ?_⟩) (fun s t part => ?_)
    (fun _ unsent writer => Host.takes_sendMessage unsent writer kind chunks l.root batch)
    fun shut => Host.refuses_sendMessage shut kind chunks l.calls.length batch
  · obtain ⟨g, among, rfl⟩ := List.mem_map.mp mem
    exact (Assembly.op_of_mem_fragments among close).elim
  · rw [length]
    exact Nat.lt_succ_self _
  · simpa using nonempty
  · cases part
    exact ⟨rfl, by rw [List.length_map]⟩

/-! ### The writer -/

/-- What is left to do may change, as long as it drops the same tokens. -/
theorem Kept.plan (kept : Kept l) {agenda : List Piece}
    (same : agenda.filterMap Piece.ticket? = l.agenda.filterMap Piece.ticket?) :
    Kept { l with agenda } where
  balanced := by
    have tokens : ({ l with agenda } : Line σ).outstanding = l.outstanding := by
      rw [outstanding, outstanding, same]
    rw [books, tokens]
    exact kept.balanced
  sent := kept.sent
  got := kept.got
  queue := kept.queue
  closeSent := kept.closeSent
  taken := kept.taken
  last := kept.last

/-- A token is answered that was outstanding. -/
theorem Kept.answer (kept : Kept l) (received : List Outbound) (agenda : List Piece) {t : Ticket}
    (perm : l.outstanding.Perm (t :: ({ l with received, agenda } : Line σ).outstanding))
    (how : Release) : Kept (({ l with received, agenda } : Line σ).answer t how) := by
  have session := Host.session_resolve l.host t how.outcome
  have sent := Host.sent_resolve l.host t how.outcome
  have got := Host.got_resolve l.host t how.outcome
  refine
    { balanced := ?_
      sent := sent.trans kept.sent
      got := ?_
      queue := fun q writer => ?_
      closeSent := (congrArg Session.closeSent session).trans kept.closeSent
      taken := kept.taken
      last := ?_ }
  · have tokens : (({ l with received, agenda } : Line σ).answer t how).outstanding =
        ({ l with received, agenda } : Line σ).outstanding := by
      rw [outstanding, outstanding, Line.answer, session]
    have balanced := kept.balanced.settle perm how.outcome
    rw [books, tokens]
    dsimp only [Line.answer]
    rw [Host.ledger_resolve, Host.outcomes_resolve]
    exact balanced
  · show (l.host.resolve t how.outcome).got <+: (l.host.resolve t how.outcome).sent
    rw [got, sent]
    exact kept.got
  · have writer : (l.host.resolve t how.outcome).session.outbox = some q := writer
    rw [session] at writer
    show (l.host.resolve t how.outcome).sent = (l.host.resolve t how.outcome).got ++ _
    rw [got, sent]
    exact kept.queue q writer
  · show (∀ p ∈ (l.host.resolve t how.outcome).sent, _) ∨
      (l.host.resolve t how.outcome).session.closeSent = true ∧
        ∃ fs p, (l.host.resolve t how.outcome).sent = fs ++ [p] ∧ _
    rw [sent, session]
    exact kept.last

theorem Kept.receive (kept : Kept l) : Kept l.receive := by
  unfold Line.receive
  split
  · next o queue writer =>
    have all := kept.queue _ writer
    let session := { l.host.session with outbox := some queue }
    have got : ({ l.host with session }.note (.fetched o.frame o.batch)).got =
        l.host.got ++ [(o.frame, o.batch)] := Host.record_note _ _ _
    have sent : ({ l.host with session }.note (.fetched o.frame o.batch)).sent = l.host.sent :=
      (Host.record_note _ _ _).trans (List.append_nil _)
    have outcomes : ({ l.host with session }.note (.fetched o.frame o.batch)).outcomes =
        l.host.outcomes := (Host.record_note _ _ _).trans (List.append_nil _)
    rw [List.map_cons, List.append_cons] at all
    refine
      { balanced := ?_
        sent := sent.trans kept.sent
        got := ?_
        queue := fun q writer' => ?_
        closeSent := kept.closeSent
        taken := kept.taken
        last := ?_ }
    · have perm : l.outstanding.Perm
          (queue.map (·.ticket) ++ (l.received ++ [o]).map (·.ticket) ++
            l.agenda.filterMap Piece.ticket?) := by
        rw [outstanding, writer, List.map_append, ← List.append_assoc]
        refine List.Perm.append_right _ ?_
        exact (List.perm_append_comm : List.Perm ([o.ticket] ++ _) _)
      rw [books]
      dsimp only
      rw [outcomes]
      exact kept.balanced.perm _ perm
    · show ({ l.host with session }.note (.fetched o.frame o.batch)).got <+:
        ({ l.host with session }.note (.fetched o.frame o.batch)).sent
      rw [got, sent, all]
      exact List.prefix_append _ _
    · cases writer'
      show ({ l.host with session }.note (.fetched o.frame o.batch)).sent =
        ({ l.host with session }.note (.fetched o.frame o.batch)).got ++ _
      rw [got, sent]
      exact all
    · show (∀ p ∈ ({ l.host with session }.note (.fetched o.frame o.batch)).sent, _) ∨
        l.host.session.closeSent = true ∧ ∃ fs p,
          ({ l.host with session }.note (.fetched o.frame o.batch)).sent = fs ++ [p] ∧ _
      rw [sent]
      exact kept.last
  · exact kept
  · exact kept

theorem Kept.hangUp (kept : Kept l) : Kept l.hangUp where
  balanced := by
    have drops : ((l.host.session.outbox.getD []).map fun o => Piece.drop o.ticket).filterMap
        Piece.ticket? = (l.host.session.outbox.getD []).map (·.ticket) := by
      simp [List.filterMap_map, Function.comp_def, Piece.ticket?]
    have perm : l.outstanding.Perm l.hangUp.outstanding := by
      rw [outstanding, outstanding, Line.hangUp, List.filterMap_append, drops, List.append_assoc]
      exact List.perm_append_comm_assoc _ _ _
    exact kept.balanced.perm _ perm
  sent := kept.sent
  got := kept.got
  queue _ writer := nomatch writer
  closeSent := kept.closeSent
  taken := kept.taken
  last := kept.last

/-! ### Histories -/

theorem Kept.perform (kept : Kept l) (d : Deed) : Kept (l.perform d) := by
  cases d with
  | send f batch => exact kept.send f batch
  | close code reason => exact kept.send (.close code reason) false
  | sendMessage kind chunks batch => exact kept.sendMessage kind chunks batch
  | receive => exact kept.receive
  | settle i how =>
    unfold Line.perform
    dsimp only
    split
    · next o there =>
      refine kept.answer (l.received.eraseIdx i) l.agenda ?_ how
      obtain ⟨bound, rfl⟩ := List.getElem?_eq_some_iff.mp there
      have taken := (List.getElem_cons_eraseIdx_perm bound).symm.map Outbound.ticket
      rw [outstanding, outstanding]
      refine (((taken.append_left _).append_right _)).trans ?_
      rw [List.map_cons]
      exact List.Perm.append_right _ (List.perm_middle)
    · exact kept
  | hangUp => exact kept.hangUp

theorem Kept.callBack {m : Line σ} (kept : Kept m) (callback : Callback) :
    Kept (callBack callback l m) := by
  refine kept.plan ?_
  have deeds : ((m.host.outcomes.drop l.host.outcomes.length).flatMap fun x =>
      (callback x.1 x.2).map Piece.deed).filterMap Piece.ticket? = [] := by
    refine List.filterMap_eq_nil_iff.mpr fun p mem => ?_
    obtain ⟨x, -, mem⟩ := List.mem_flatMap.mp mem
    obtain ⟨d, -, rfl⟩ := List.mem_map.mp mem
    rfl
  rw [List.filterMap_append, deeds, List.nil_append]

theorem Kept.step (kept : Kept l) (callback : Callback) (e : Event) : Kept (step callback l e) := by
  cases e with
  | deed d => exact (kept.perform d).callBack callback
  | next =>
    unfold Line.step
    dsimp only
    split
    · exact kept
    · next d agenda next_ =>
      refine Kept.callBack (Kept.perform (kept.plan ?_) d) callback
      rw [next_]
      rfl
    · next t agenda next_ =>
      refine Kept.callBack (kept.answer l.received agenda ?_ .drop) callback
      rw [outstanding, outstanding, next_]
      exact List.perm_middle

theorem Kept.run (kept : Kept l) (callback : Callback) (events : List Event) :
    Kept (run callback l events) := by
  induction events generalizing l with
  | nil => exact kept
  | cons e events ih => exact ih (kept.step callback e)

theorem kept_start {h : Host σ} (journal : h.journal = []) (unsent : h.session.closeSent = false)
    (writer : h.session.outbox = some []) : Kept (start h) := by
  have nothing {α : Type} (read : Note → Option α) : h.record read = [] := by
    rw [Host.record, journal]
    rfl
  have outstanding : (start h).outstanding = [] := by
    rw [Line.outstanding, start, writer]
    rfl
  refine
    { balanced := ?_
      sent := nothing _
      got := ?_
      queue := fun q writer' => ?_
      closeSent := unsent
      taken := fun n c call => by cases call
      last := .inl fun p mem => ?_ }
  · rw [books, outstanding, show (start h).host.outcomes = [] from nothing _]
    exact
      { leads := fun n c call => by cases call
        apart := fun n m c d s t u call => by cases call
        known := fun t mem => by cases mem
        answered := fun a mem => by cases mem
        heard := fun x mem => by cases mem
        accounts := fun n c call => by cases call
        refused := fun n c call => by cases call }
  · rw [show (start h).host.got = [] from nothing _]
    exact List.nil_prefix
  · cases writer.symm.trans writer'
    rw [show (start h).host.sent = [] from nothing _, show (start h).host.got = [] from nothing _]
    rfl
  · rw [show (start h).host.sent = [] from nothing _] at mem
    cases mem

/-- The writer receives what was taken, call by call, and nothing after a CLOSE.  A call is taken
    unless the writer was gone or a CLOSE was offered before; then its caller hears a transport
    failure at once.  Otherwise each of its tokens is outstanding or was answered, and its caller
    hears of it once, when all are answered: the first failure among the answers, or success. -/
theorem calls_accounted (memory : σ) (handler : Handler) (id : ConnectionId) (config : Config)
    (interval : Duration) (house : House) (callback : Callback) (events : List Event) :
    let l := run callback
      (start (Connection.create memory handler id config interval house).host) events
    l.host.sent = (l.calls.filter (·.taken)).flatMap (·.frames) ∧
      l.host.got <+: l.host.sent ∧
      (∀ queue, l.host.session.outbox = some queue →
        l.host.sent = l.host.got ++ queue.map fun o => (o.frame, o.batch)) ∧
      (∀ fs p gs, l.host.sent = fs ++ p :: gs → p.1.op = .close → gs = []) ∧
      ∀ (n : Nat) (c : Sent), l.calls[n]? = some c →
        (c.taken = true ↔
          c.gone = false ∧ ∀ d ∈ l.calls.take n, ∀ p ∈ d.frames, p.1.op ≠ .close) ∧
        (c.taken = false → ∃ reason, l.books.heardBy n = [.error (.transport reason)]) ∧
        (c.taken = true →
          l.outstanding.count c.ticket + (l.books.answersTo c.ticket).length = c.frames.length ∧
          l.books.heardBy n = if l.outstanding.count c.ticket = 0 then
            [Sent.verdict (l.books.answersTo c.ticket)] else []) := by
  intro l
  have kept : Kept l := (kept_start rfl rfl rfl).run callback events
  refine ⟨kept.sent, kept.got, kept.queue, fun fs p gs sent op => ?_, fun n c call =>
    ⟨?_, kept.balanced.refused n c call, fun taken => ?_⟩⟩
  · rcases kept.last with unclosed | ⟨-, hs, q, last, before⟩
    · exact (unclosed p (by rw [sent]; simp) op).elim
    · rcases List.eq_nil_or_concat gs with nothing | ⟨gs', g, rfl⟩
      · exact nothing
      · rw [last, List.concat_eq_append, ← List.cons_append, ← List.append_assoc] at sent
        rw [(List.append_inj' sent rfl).1] at before
        exact (before p (by simp) op).elim
  · rw [kept.taken n c call, Bool.and_eq_true, Bool.not_eq_true', Bool.not_eq_true', and_comm]
    simp only [List.any_eq_false, Bool.not_eq_true, Sent.closes_eq_false_iff]
  · have accounts := kept.balanced.accounts n c call taken
    exact ⟨accounts.counted, accounts.heard⟩

end Line

end WebSocketEngine
