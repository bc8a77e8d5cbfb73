import WebSocketEngine.Proofs.Host.Account
import WebSocketEngine.Proofs.Host.Granting
import WebSocketEngine.Proofs.Session.Calls

/-!
What a host has to show of the driver's callbacks, and of the frames that others offer meanwhile.

The docket of a host lists the events at its handler, the tokens that are kept, and how the last
callback of the driver stands.  An event at the handler adds one entry; then the callback is
answered, or its token is kept, or nothing is heard of it:

    docket ── handed ──▶ event ──┬─▶ verdict
                                 ├─▶ held
                                 └─▶ (nothing)

All the while the application may offer frames, and some of them are accepted (`Attends`).
-/

namespace WebSocketEngine

variable {σ : Type}

namespace Application

variable (app : Application σ) (memory : σ) (calls more : List Call)

theorem recollect_append :
    app.recollect memory (calls ++ more) = app.recollect (app.recollect memory calls) more := by
  induction calls generalizing memory with
  | nil => rfl
  | cons c calls ih => exact ih _

theorem deeds_append :
    app.deeds memory (calls ++ more) =
      app.deeds memory calls ++ app.deeds (app.recollect memory calls) more := by
  induction calls generalizing memory with
  | nil => rfl
  | cons c calls ih => rw [List.cons_append, deeds, ih, deeds, recollect, List.append_assoc]

theorem offers_append :
    app.offers memory (calls ++ more) =
      app.offers memory calls ++ app.offers (app.recollect memory calls) more := by
  rw [offers, deeds_append, List.flatMap_append]
  rfl

end Application

/-- Only the PONG frames. -/
def pongs (fs : List Frame) : List Frame := fs.filter (·.op = .pong)

namespace Host

variable {op : OpCode} {h k l : Host σ} {fs gs : List Frame}

/-! ### Offers of others -/

/-- Nothing is accepted any more. -/
def isShut (h : Host σ) : Bool := h.session.closeSent || h.session.outbox.isNone

/-- No token of the driver waits for the writer. -/
def Outward (h : Host σ) : Prop :=
  ∀ queue, h.session.outbox = some queue → ∀ o ∈ queue, o.ticket.sink.Outside

/-- What nobody undoes. -/
structure Keeps (h k : Host σ) : Prop where
  shut : h.isShut = true → k.isShut = true
  outward : h.Outward → k.Outward
  awake : .driver ∈ h.ready → .driver ∈ k.ready

/-- Frames are offered, and among the accepted ones there is none with this opcode but of these. -/
structure Offers (op : OpCode) (fs : List Frame) (h k : Host σ) : Prop extends Keeps h k where
  accepted : ∃ taken, k.accepted = h.accepted ++ taken ∧
    (taken.filter (·.op = op)).Sublist (fs.filter (·.op = op))

theorem Keeps.trans (first : Keeps h k) (second : Keeps k l) : Keeps h l where
  shut shut := second.shut (first.shut shut)
  outward outward := second.outward (first.outward outward)
  awake awake := second.awake (first.awake awake)

theorem Offers.trans (first : Offers op fs h k) (second : Offers op gs k l) :
    Offers op (fs ++ gs) h l where
  toKeeps := first.toKeeps.trans second.toKeeps
  accepted := by
    obtain ⟨taken, accepted, sub⟩ := first.accepted
    obtain ⟨taken', accepted', sub'⟩ := second.accepted
    refine ⟨taken ++ taken', by rw [accepted', accepted, List.append_assoc], ?_⟩
    rw [List.filter_append, List.filter_append]
    exact sub.append sub'

theorem Offers.mono (offers : Offers op fs h k)
    (sub : (fs.filter (·.op = op)).Sublist (gs.filter (·.op = op))) : Offers op gs h k :=
  { offers with
    accepted := by
      obtain ⟨taken, accepted, among⟩ := offers.accepted
      exact ⟨taken, accepted, among.trans sub⟩ }

theorem keeps_of_eq (closeSent : k.session.closeSent = h.session.closeSent)
    (outbox : k.session.outbox = h.session.outbox)
    (awake : .driver ∈ h.ready → .driver ∈ k.ready) : Keeps h k where
  shut shut := by rwa [isShut, closeSent, outbox]
  outward outward := by rwa [Outward, outbox]
  awake := awake

/-- Nothing is offered. -/
theorem offers_of_eq (accepted : k.accepted = h.accepted)
    (closeSent : k.session.closeSent = h.session.closeSent)
    (outbox : k.session.outbox = h.session.outbox)
    (awake : .driver ∈ h.ready → .driver ∈ k.ready) : Offers op fs h k where
  toKeeps := keeps_of_eq closeSent outbox awake
  accepted := ⟨[], accepted.trans (List.append_nil _).symm, List.nil_sublist _⟩

theorem offers_refl (h : Host σ) : Offers op fs h h := offers_of_eq rfl rfl rfl id

theorem offers_note (h : Host σ) {n : Note} (unaccepted : n.frame? = none) :
    Offers op fs h (h.note n) :=
  offers_of_eq ((record_note _ h n).trans (by rw [unaccepted]; exact List.append_nil _)) rfl rfl id

theorem ready_deliver (h : Host σ) (d : Option (Completion.Delivery Sink))
    (awake : .driver ∈ h.ready) : .driver ∈ (h.deliver d).ready := by
  unfold deliver
  split
  · exact awake
  · exact awake
  · exact awake
  · split
    · exact mem_enqueue.mpr (.inr rfl)
    · exact awake

theorem offers_resolve (h : Host σ) (t : Ticket) (o : Outcome) : Offers op fs h (h.resolve t o) :=
  offers_of_eq (record_deliver { h with ledger := _ } _ fun _ _ => rfl)
    (congrArg Session.closeSent (session_resolve h t o))
    (congrArg Session.outbox (session_resolve h t o))
    fun awake => ready_deliver { h with ledger := _ } _ awake

theorem offers_grant (h : Host σ) (n : UInt64) : Offers op fs h (h.grant n) :=
  offers_of_eq rfl rfl rfl fun awake => mem_foldl_enqueue.mpr (.inl awake)

theorem offers_giveBack (h : Host σ) : Offers op fs h h.giveBack := by
  unfold giveBack
  split
  · exact offers_grant h 1
  · exact offers_refl h

theorem offers_abort (h : Host σ) (e : Failure) : Offers op fs h (h.abort e) := by
  rcases abort_cases h e with same | ⟨-, aborted⟩
  · rw [same]
    exact offers_refl h
  · rw [aborted]
    refine offers_of_eq ?_ rfl rfl fun _ => mem_enqueue.mpr (.inr rfl)
    exact (record_note _ h _).trans (List.append_nil _)

theorem offers_foldl_log (h : Host σ) (lines : List Log.Line) :
    Offers op fs h (lines.foldl log h) := by
  induction lines generalizing h with
  | nil => exact offers_refl h
  | cons l lines ih =>
    have logged : Offers op [] h (h.log l) := offers_note h rfl
    exact logged.trans (ih _)

theorem keeps_of_sends {P : Frame → Prop} (sends : Sends P h k) : Keeps h k := by
  induction sends with
  | refl => exact ⟨id, id, id⟩
  | book _ _ ih => exact ⟨ih.shut, ih.outward, ih.awake⟩
  | settle _ _ _ ih => exact ⟨ih.shut, ih.outward, ih.awake⟩
  | @accept k out queue _ unsent writer _ outside ih =>
    refine ⟨fun shut => ?_, fun outward queue' writer' o mem => ?_, ih.awake⟩
    · have gone := ih.shut shut
      rw [isShut, unsent, writer] at gone
      cases gone
    · cases writer'
      rcases List.mem_append.mp mem with old | fresh
      · exact ih.outward outward queue writer o old
      · rw [List.mem_singleton.mp fresh]
        exact outside
  | @lose k f _ _ gone _ ih =>
    refine ⟨fun _ => ?_, ih.outward, ih.awake⟩
    rw [isShut, lose]
    simp [gone]

/-- A frame is offered that the driver does not wait for. -/
theorem offers_send (h : Host σ) (f : Frame) {t : Ticket} (outside : t.sink.Outside)
    (batch : Bool) : Offers op [f] h (h.send f t batch) where
  toKeeps := keeps_of_sends (sends_send (P := fun _ => True) h trivial outside batch)
  accepted := by
    cases closed : h.session.closeSent with
    | true =>
      rw [send_of_closed h closed]
      exact (offers_resolve h t _).accepted
    | false =>
      cases writer : h.session.outbox with
      | none =>
        rw [send_of_gone h closed writer]
        exact (offers_resolve (h.lose f) t _).accepted
      | some queue =>
        rw [send_of_open h closed writer]
        exact ⟨[f], record_note _ _ _, List.Sublist.refl _⟩

theorem offers_sendMessage (h : Host σ) (kind : MessageKind) (chunks : List Bytes) {t : Ticket}
    (outside : t.sink.Outside) (batch : Bool) :
    Offers op (Assembly.fragments kind chunks) h (h.sendMessage kind chunks t batch) := by
  have each (fs : List Frame) (k : Host σ) (t : Ticket) (outside : t.sink.Outside) :
      Offers op fs k (fs.foldl (fun k f => k.send f t (batch || !f.fin)) k) := by
    induction fs generalizing k with
    | nil => exact offers_refl k
    | cons f fs ih => exact (offers_send k f outside _).trans (ih _)
  rw [sendMessage_eq]
  have shared : Offers op [] h (h.share (Assembly.fragments kind chunks).length) :=
    offers_of_eq rfl rfl rfl id
  exact shared.trans (each _ _ _ outside)

/-! ### Offers of the application -/

theorem offers_perform (h : Host σ) (a : Act) : Offers op a.frames h (h.perform a) := by
  cases a with
  | change c => exact offers_of_eq rfl rfl rfl id
  | setIdleTimeout d => exact offers_of_eq rfl rfl rfl id
  | demand n => exact offers_grant h n
  | send f batch caller => exact offers_send h f (outside_ticketFor caller) batch
  | sendMessage kind chunks batch caller =>
    exact offers_sendMessage h kind chunks (outside_ticketFor caller) batch
  | abort e => exact offers_abort h e
  | shutdown => exact offers_of_eq rfl rfl rfl fun _ => mem_enqueue.mpr (.inr rfl)

theorem offers_foldl_perform (h : Host σ) (acts : List Act) :
    Offers op (acts.flatMap Act.frames) h (acts.foldl perform h) := by
  induction acts generalizing h with
  | nil => exact offers_refl h
  | cons a acts ih => exact (offers_perform h a).trans (ih _)

/-- The application may have been called, and has offered frames in its calls. -/
structure Attends (op : OpCode) (app : Application σ) (h k : Host σ) : Prop where
  called : ∃ calls, k.calls = h.calls ++ calls ∧ k.memory = app.recollect h.memory calls ∧
    Offers op (app.offers h.memory calls) h k

variable {app : Application σ}

theorem Attends.keeps (attends : Attends op app h k) : Keeps h k := by
  obtain ⟨calls, -, -, offers⟩ := attends
  exact offers.toKeeps

theorem Attends.trans (first : Attends op app h k) (second : Attends op app k l) :
    Attends op app h l := by
  obtain ⟨cs, called, memory, offers⟩ := first
  obtain ⟨ds, called', memory', offers'⟩ := second
  refine ⟨cs ++ ds, by rw [called', called, List.append_assoc], ?_, ?_⟩
  · rw [memory', memory, app.recollect_append]
  · rw [app.offers_append, ← memory]
    exact offers.trans offers'

/-- The application was not called. -/
theorem Offers.attends (offers : Offers op [] h k) (calls : k.calls = h.calls)
    (memory : k.memory = h.memory) : Attends op app h k :=
  ⟨[], calls.trans (List.append_nil _).symm, memory, offers⟩

/-- What the writer, the application and the record do not notice. -/
theorem attends_of_eq (journal : k.journal = h.journal) (session : k.session = h.session)
    (ready : k.ready = h.ready) (memory : k.memory = h.memory) : Attends op app h k :=
  (offers_of_eq (record_of_journal journal _) (congrArg Session.closeSent session)
    (congrArg Session.outbox session) fun awake => ready ▸ awake).attends
    (record_of_journal journal _) memory

theorem attends_call (h : Host σ) (c : Call) : Attends op app h (h.call app c).1 := by
  refine ⟨[c], calls_call app h c, congrArg Front.memory (front_call app h c), ?_⟩
  have noted : Offers op [] h ({ h with memory := (app.react h.memory c).1 }.note (.called c)) :=
    offers_of_eq ((record_note _ h _).trans (List.append_nil _)) rfl rfl id
  have offered : app.offers h.memory [c] = (app.react h.memory c).2.acts.flatMap Act.frames := by
    rw [Application.offers, Application.deeds, Application.deeds, List.append_nil]
  rw [offered]
  exact noted.trans (offers_foldl_perform _ _)

theorem attends_callIf (h : Host σ) (installed : Bool) (c : Call) :
    Attends op app h (h.callIf app installed c).1 := by
  cases installed with
  | false => exact attends_of_eq rfl rfl rfl rfl
  | true => exact attends_call h c

theorem Attends.offers (attends : Attends op app h k) (further : Offers op [] k l)
    (calls : l.calls = k.calls) (memory : l.memory = k.memory) : Attends op app h l :=
  attends.trans (further.attends calls memory)

/-- A token is resolved, or work is noted that is not the application's. -/
theorem attends_resolve (h : Host σ) (t : Ticket) (o : Outcome) :
    Attends op app h (h.resolve t o) :=
  (offers_resolve h t o).attends (record_deliver { h with ledger := _ } _ fun _ _ => rfl)
    (congrArg Account.memory (account_resolve h t o))

theorem attends_note (h : Host σ) {n : Note} (unaccepted : n.frame? = none)
    (uncalled : n.call? = none) : Attends op app h (h.note n) :=
  (offers_note h unaccepted).attends
    ((record_note _ h n).trans (by rw [uncalled]; exact List.append_nil _)) rfl

/-- A unit of demand is taken, and that is noted. -/
theorem attends_take (app : Application σ) (h : Host σ) {session : Session}
    (taken : h.session.take? = some session) {n : Note} (unaccepted : n.frame? = none)
    (uncalled : n.call? = none) : Attends op app h ({ h with session }.note n) := by
  obtain ⟨-, rfl⟩ := Session.eq_of_take? taken
  let paid := { h with session := { h.session with demand := h.session.demand - 1 } }
  have offers : Offers op [] h paid := offers_of_eq rfl rfl rfl id
  exact (offers.attends rfl rfl).trans (attends_note paid unaccepted uncalled)

theorem attends_giveBack (h : Host σ) : Attends op app h h.giveBack :=
  (offers_giveBack h).attends (congrArg Front.calls (front_giveBack h))
    (congrArg Front.memory (front_giveBack h))

theorem attends_answer (h : Host σ) (t : Ticket) (reply : Reply) :
    Attends op app h (h.answer t reply).1 := by
  cases reply with
  | hold => exact attends_of_eq rfl rfl rfl rfl
  | succeed | fail _ | drop | panic _ => exact attends_resolve h t _

/-! ### Events -/

theorem attends_opened (h : Host σ) (t : Ticket) : Attends op app h (h.opened app t).1 := by
  have noted : Attends op app h (h.note (.handed .opened)) := attends_note h rfl rfl
  unfold opened
  dsimp only
  split
  · exact (noted.trans (attends_call _ _)).trans (attends_answer _ t _)
  · next a _ =>
    have called := noted.trans (attends_callIf _ app.hooks.onOpen .opened)
    split
    · next k p eq =>
      rw [eq] at called
      exact called.trans (attends_resolve k t _)
    · next k reply _ eq =>
      rw [eq] at called
      have opened : Attends op app k { k with handler := .assembling a.opened } :=
        attends_of_eq rfl rfl rfl rfl
      exact (called.trans opened).trans (attends_resolve _ t _)

theorem attends_settleFrame (h : Host σ) (f : Frame) (t : Ticket) (v : Assembly.Verdict) :
    Attends op app h (h.settleFrame app f t v).1 := by
  cases v with
  | ended | refused e => exact attends_resolve h t _
  | taken => exact (attends_resolve h t _).trans (attends_giveBack _)
  | complete m =>
    simp only [settleFrame]
    split
    · exact (attends_call h _).trans (attends_answer _ _ _)
    · exact attends_resolve h _ _
  | control =>
    have called : Attends op app h (h.callIf app app.hooks.onControl (.control f)).1 :=
      attends_callIf h _ _
    simp only [settleFrame]
    split
    · next k p eq =>
      rw [eq] at called
      exact called.trans (attends_resolve k t _)
    · next k reply _ eq =>
      rw [eq] at called
      exact (called.trans (attends_resolve k t _)).trans (attends_giveBack _)

theorem attends_frame (h : Host σ) (f : Frame) (t : Ticket) :
    Attends op app h (h.frame app f t).1 := by
  have noted : Attends op app h (h.note (.handed (.frame f))) := attends_note h rfl rfl
  unfold frame
  dsimp only
  split
  · exact (noted.trans (attends_call _ _)).trans (attends_answer _ t _)
  · next a _ =>
    let judging := { h.note (.handed (.frame f)) with
      handler := .assembling (a.step app.hooks h.session.config f).1 }
    have judged : Attends op app (h.note (.handed (.frame f))) judging :=
      attends_of_eq rfl rfl rfl rfl
    have logged := front_foldl_log judging (a.step app.hooks h.session.config f).2.1
    have judged := judged.offers (offers_foldl_log judging _) (congrArg Front.calls logged)
      (congrArg Front.memory logged)
    exact (noted.trans judged).trans (attends_settleFrame _ f t _)

theorem attends_endAssembly (h : Host σ) (f : Assembly.Assembler → Assembly.Assembler) :
    Attends op app h (h.endAssembly f) := by
  unfold endAssembly
  split
  · exact attends_of_eq rfl rfl rfl rfl
  · exact attends_of_eq rfl rfl rfl rfl

theorem attends_failed (h : Host σ) (e : Failure) : Attends op app h (h.failed app e).1 := by
  have noted : Attends op app h (h.note (.handed (.failed e))) := attends_note h rfl rfl
  exact (noted.trans (attends_endAssembly _ _)).trans (attends_callIf _ _ _)

theorem attends_closed (h : Host σ) (code : CloseCode) :
    Attends op app h (h.closed app code).1 := by
  have noted : Attends op app h (h.note (.handed (.closed code))) := attends_note h rfl rfl
  exact (noted.trans (attends_endAssembly _ _)).trans (attends_callIf _ _ _)

/-! ### The docket -/

/-- The events at the handler, the tokens that are kept, and how the driver's callback stands. -/
structure Docket where
  events : List Call
  held : List Ticket
  callbacks : Nat
  verdict : Option Outcome

def docket (h : Host σ) : Docket := ⟨h.events, h.held, h.callbacks, h.verdict⟩

/-- One more event. -/
def Docket.add (d : Docket) (c : Call) : Docket := { d with events := d.events ++ [c] }

/-- What can be heard of the driver's last callback at once. -/
inductive Docket.Heard (d : Docket) : Docket → Prop
  | nothing : Heard d d
  | verdict (o : Outcome) : Heard d { d with verdict := some o }
  | kept (t : Ticket) : t.sink = .driver d.callbacks → Heard d { d with held := d.held ++ [t] }

theorem docket_note (h : Host σ) {n : Note} (unhanded : n.event? = none) :
    (h.note n).docket = h.docket := by
  have events : (h.note n).events = h.events :=
    (record_note _ h n).trans (by rw [unhanded]; exact List.append_nil _)
  rw [docket, events]
  rfl

theorem docket_handed (h : Host σ) (c : Call) : (h.note (.handed c)).docket = h.docket.add c := by
  have events : (h.note (.handed c)).events = h.events ++ [c] := record_note _ h _
  rw [docket, events]
  rfl

theorem docket_foldl_log (h : Host σ) (lines : List Log.Line) :
    (lines.foldl log h).docket = h.docket := by
  induction lines generalizing h with
  | nil => rfl
  | cons l lines ih => exact (ih _).trans (docket_note h rfl)

theorem docket_call (app : Application σ) (h : Host σ) (c : Call) :
    (h.call app c).1.docket = h.docket := by
  have front := front_call app h c
  have held : (h.call app c).1.held = h.held := congrArg Front.held front
  have callbacks : (h.call app c).1.callbacks = h.callbacks := congrArg Front.callbacks front
  have verdict : (h.call app c).1.verdict = h.verdict := congrArg Front.verdict front
  have events : (h.call app c).1.events = h.events := by
    unfold call
    exact (record_foldl_perform _ _ (fun _ _ => rfl) (fun _ _ => rfl) fun _ => rfl).trans
      ((record_note _ h _).trans (List.append_nil _))
  rw [docket, held, callbacks, verdict, events]
  rfl

theorem docket_callIf (app : Application σ) (h : Host σ) (installed : Bool) (c : Call) :
    (h.callIf app installed c).1.docket = h.docket := by
  cases installed with
  | false => rfl
  | true => exact docket_call app h c

theorem docket_abort (h : Host σ) (e : Failure) : (h.abort e).docket = h.docket := by
  rcases abort_cases h e with same | ⟨-, aborted⟩
  · rw [same]
  · rw [aborted]
    exact docket_note h rfl

theorem docket_giveBack (h : Host σ) : h.giveBack.docket = h.docket := by
  unfold giveBack
  split <;> rfl

theorem docket_sends {P : Frame → Prop} (sends : Sends P h k) : k.docket = h.docket := by
  show (⟨k.events, k.still.held, k.still.callbacks, k.still.verdict⟩ : Docket) = _
  rw [sends.events, sends.still]
  rfl

/-- To resolve a token settles the driver's last callback, or it does nothing to the docket. -/
theorem docket_resolve (h : Host σ) (t : Ticket) (o : Outcome) :
    (h.resolve t o).docket = h.docket ∨
      t.sink = .driver h.callbacks ∧ .driver ∈ (h.resolve t o).ready ∧
        ∃ whole, (h.resolve t o).docket = { h.docket with verdict := some whole } := by
  have resolved : h.resolve t o =
      { h with ledger := (h.ledger.resolve t o).1 }.deliver (h.ledger.resolve t o).2 := rfl
  rcases h.ledger.resolve_sink t o with nobody | ⟨whole, told⟩
  · refine .inl ?_
    rw [resolved, nobody]
    rfl
  · rw [resolved, told]
    cases sink : t.sink with
    | silent => exact .inl rfl
    | caller n => exact .inl (docket_note { h with ledger := _ } rfl)
    | driver n =>
      by_cases last : n = h.callbacks
      · subst last
        refine .inr ⟨rfl, ?_⟩
        simp only [deliver, if_true]
        exact ⟨mem_enqueue.mpr (.inr rfl), whole, rfl⟩
      · refine .inl ?_
        simp only [deliver, if_neg last]
        rfl

theorem heard_resolve (h : Host σ) (t : Ticket) (o : Outcome) :
    h.docket.Heard (h.resolve t o).docket := by
  rcases docket_resolve h t o with same | ⟨-, -, whole, settled⟩
  · rw [same]
    exact .nothing
  · rw [settled]
    exact .verdict whole

theorem heard_answer (h : Host σ) {t : Ticket} (mine : t.sink = .driver h.callbacks)
    (reply : Reply) : h.docket.Heard (h.answer t reply).1.docket := by
  cases reply with
  | hold => exact .kept t mine
  | succeed | fail _ | drop | panic _ => exact heard_resolve h t _

/-- The opening is one more event, and something may be heard of its callback. -/
theorem heard_opened (app : Application σ) (h : Host σ) {t : Ticket}
    (mine : t.sink = .driver h.callbacks) :
    (h.docket.add .opened).Heard (h.opened app t).1.docket := by
  have handed := docket_handed h .opened
  unfold opened
  dsimp only
  split
  · have called := (docket_call app (h.note (.handed .opened)) .opened).trans handed
    have answered := heard_answer ((h.note (.handed .opened)).call app .opened).1 (t := t)
      (mine.trans (congrArg (Sink.driver ·.callbacks) called.symm))
      ((h.note (.handed .opened)).call app .opened).2
    rwa [called] at answered
  · next a _ =>
    have called :=
      (docket_callIf app (h.note (.handed .opened)) app.hooks.onOpen .opened).trans handed
    split
    · next k p eq =>
      rw [eq] at called
      rw [← called]
      exact heard_resolve k t _
    · next k reply _ eq =>
      rw [eq] at called
      have opened : ({ k with handler := .assembling a.opened } : Host σ).docket = k.docket := rfl
      rw [← called, ← opened]
      exact heard_resolve _ t _

theorem heard_settleFrame (app : Application σ) (h : Host σ) (f : Frame) {t : Ticket}
    (mine : t.sink = .driver h.callbacks) (v : Assembly.Verdict) :
    h.docket.Heard (h.settleFrame app f t v).1.docket := by
  cases v with
  | ended | refused e => exact heard_resolve h t _
  | taken =>
    simp only [settleFrame, docket_giveBack]
    exact heard_resolve h t _
  | complete m =>
    simp only [settleFrame]
    split
    · have called := docket_call app h (.message m)
      have answered := heard_answer (h.call app (.message m)).1 (t := .derived t)
        (mine.trans (congrArg (Sink.driver ·.callbacks) called.symm)) (h.call app (.message m)).2
      rwa [called] at answered
    · exact heard_resolve h _ _
  | control =>
    have called := docket_callIf app h app.hooks.onControl (.control f)
    simp only [settleFrame]
    split
    · next k p eq =>
      rw [eq] at called
      rw [← called]
      exact heard_resolve k t _
    · next k reply _ eq =>
      rw [eq] at called
      rw [docket_giveBack, ← called]
      exact heard_resolve k t _

theorem heard_frame (app : Application σ) (h : Host σ) (f : Frame) {t : Ticket}
    (mine : t.sink = .driver h.callbacks) :
    (h.docket.add (.frame f)).Heard (h.frame app f t).1.docket := by
  have handed := docket_handed h (.frame f)
  unfold frame
  dsimp only
  split
  · have called := (docket_call app (h.note (.handed (.frame f))) (.frame f)).trans handed
    have answered := heard_answer ((h.note (.handed (.frame f))).call app (.frame f)).1 (t := t)
      (mine.trans (congrArg (Sink.driver ·.callbacks) called.symm))
      ((h.note (.handed (.frame f))).call app (.frame f)).2
    rwa [called] at answered
  · next a _ =>
    have logged := (docket_foldl_log { h.note (.handed (.frame f)) with
      handler := .assembling (a.step app.hooks h.session.config f).1 }
      (a.step app.hooks h.session.config f).2.1).trans handed
    have settled := heard_settleFrame app _ f (t := t)
      (mine.trans (congrArg (Sink.driver ·.callbacks) logged.symm))
      (a.step app.hooks h.session.config f).2.2
    rwa [logged] at settled

theorem docket_endAssembly (h : Host σ) (f : Assembly.Assembler → Assembly.Assembler) :
    (h.endAssembly f).docket = h.docket := by
  unfold endAssembly
  split <;> rfl

theorem docket_failed (h : Host σ) (e : Failure) :
    (h.failed app e).1.docket = h.docket.add (.failed e) :=
  (docket_callIf app _ _ _).trans ((docket_endAssembly _ _).trans (docket_handed h _))

theorem docket_closed (h : Host σ) (code : CloseCode) :
    (h.closed app code).1.docket = h.docket.add (.closed code) :=
  (docket_callIf app _ _ _).trans ((docket_endAssembly _ _).trans (docket_handed h _))

end Host

end WebSocketEngine
