import WebSocketEngine.Proofs.Assembly.Delivery
import WebSocketEngine.Proofs.Session.Calls

/-!
A handler that is opened a second time.

    past ──▶ opened again  ──▶ later
             opened anew   ──▶ later

What happens to a handler may surround it with another host each time: another session, another
configuration, other tokens.  To open it makes good that it was closed, and does nothing about a
message of which some frames are still missing.  So it goes on like a handler that was just made
exactly if no message is half received (`reopened_like_new_iff`); a failure, a CLOSE frame or the end
of the connection sees to that (`openKind_of_clears`).
-/

namespace WebSocketEngine

variable {σ : Type}

open Assembly (Accumulator Assembler Effect Verdict)

/-! ### A host with another handler -/

namespace Host

/-- The same host, but for the handler. -/
def under (h : Host σ) (x : Handler) : Host σ := { h with handler := x }

variable {app : Application σ}

theorem deliver_under (h : Host σ) (x : Handler) (d : Option (Completion.Delivery Sink)) :
    (h.under x).deliver d = (h.deliver d).under x := by
  unfold deliver
  split
  · rfl
  · rfl
  · rfl
  · next n o =>
    show (if n = h.callbacks then _ else _) = _
    split <;> rfl

theorem resolve_under (h : Host σ) (x : Handler) (t : Ticket) (o : Outcome) :
    (h.under x).resolve t o = (h.resolve t o).under x :=
  deliver_under { h with ledger := (h.ledger.resolve t o).1 } x _

theorem send_under (h : Host σ) (x : Handler) (f : Frame) (t : Ticket) (batch : Bool) :
    (h.under x).send f t batch = (h.send f t batch).under x := by
  cases sent : h.session.closeSent with
  | true =>
    rw [send_of_closed h sent, send_of_closed (h.under x) sent]
    exact resolve_under h x t _
  | false =>
    cases writer : h.session.outbox with
    | some queue =>
      rw [send_of_open h sent writer, send_of_open (h.under x) sent writer]
      rfl
    | none =>
      rw [send_of_gone h sent writer, send_of_gone (h.under x) sent writer]
      exact resolve_under (h.lose f) x t _

theorem sendMessage_under (h : Host σ) (x : Handler) (kind : MessageKind) (chunks : List Bytes)
    (t : Ticket) (batch : Bool) :
    (h.under x).sendMessage kind chunks t batch = (h.sendMessage kind chunks t batch).under x := by
  have each (part : Ticket) (fs : List Frame) (k : Host σ) :
      fs.foldl (fun k f => k.send f part (batch || !f.fin)) (k.under x) =
        (fs.foldl (fun k f => k.send f part (batch || !f.fin)) k).under x := by
    induction fs generalizing k with
    | nil => rfl
    | cons f fs ih => rw [List.foldl_cons, send_under, ih, List.foldl_cons]
  rw [sendMessage_eq, sendMessage_eq]
  exact each _ _ (h.share _)

theorem abort_under (h : Host σ) (x : Handler) (e : Failure) :
    (h.under x).abort e = (h.abort e).under x := by
  have reason : (h.under x).session.abortReason = h.session.abortReason := rfl
  unfold abort
  rw [reason]
  cases h.session.abortReason <;> rfl

theorem perform_under (h : Host σ) (x : Handler) (a : Act) :
    (h.under x).perform a = (h.perform a).under x := by
  cases a with
  | change | setIdleTimeout | demand | shutdown => rfl
  | send f batch caller => exact send_under h x f _ batch
  | sendMessage kind chunks batch caller => exact sendMessage_under h x kind chunks _ batch
  | abort e => exact abort_under h x e

theorem foldl_perform_under (h : Host σ) (x : Handler) (acts : List Act) :
    acts.foldl perform (h.under x) = (acts.foldl perform h).under x := by
  induction acts generalizing h with
  | nil => rfl
  | cons a acts ih => rw [List.foldl_cons, perform_under, ih, List.foldl_cons]

/-- The application does not see the handler. -/
theorem call_under (h : Host σ) (x : Handler) (c : Call) :
    (h.under x).call app c = ((h.call app c).1.under x, (h.call app c).2) := by
  refine Prod.ext ?_ rfl
  exact foldl_perform_under ({ h with memory := (app.react h.memory c).1 }.note (.called c)) x _

theorem callIf_under (h : Host σ) (x : Handler) (installed : Bool) (c : Call) :
    (h.under x).callIf app installed c =
      ((h.callIf app installed c).1.under x, (h.callIf app installed c).2) := by
  cases installed with
  | false => rfl
  | true => exact call_under h x c

/-! ### What happens to a handler -/

theorem handler_resolve (h : Host σ) (t : Ticket) (o : Outcome) :
    (h.resolve t o).handler = h.handler :=
  (congrArg Host.handler (resolve_under h h.handler t o) :)

theorem handler_call (h : Host σ) (c : Call) : (h.call app c).1.handler = h.handler := by
  have same : h.call app c = ((h.call app c).1.under h.handler, (h.call app c).2) :=
    call_under h h.handler c
  exact congrArg (·.1.handler) same

theorem handler_callIf (h : Host σ) (installed : Bool) (c : Call) :
    (h.callIf app installed c).1.handler = h.handler := by
  cases installed with
  | false => rfl
  | true => exact handler_call h c

theorem handler_answer (h : Host σ) (t : Ticket) (reply : Reply) :
    (h.answer t reply).1.handler = h.handler := by
  cases reply with
  | hold => rfl
  | succeed | fail _ | drop | panic _ => exact handler_resolve h t _

theorem handler_giveBack (h : Host σ) : h.giveBack.handler = h.handler := by
  unfold giveBack
  split <;> rfl

theorem handler_foldl_log (h : Host σ) (lines : List Log.Line) :
    (lines.foldl log h).handler = h.handler := by
  induction lines generalizing h with
  | nil => rfl
  | cons l lines ih => exact ih (h.log l)

theorem handler_settleFrame (h : Host σ) (f : Frame) (t : Ticket) (v : Verdict) :
    (h.settleFrame app f t v).1.handler = h.handler := by
  cases v with
  | ended | refused _ => exact handler_resolve h t _
  | taken => exact (handler_giveBack _).trans (handler_resolve h t _)
  | complete m =>
    simp only [settleFrame]
    split
    · exact (handler_answer _ _ _).trans (handler_call h _)
    · exact handler_resolve h _ _
  | control =>
    have called : (h.callIf app app.hooks.onControl (.control f)).1.handler = h.handler :=
      handler_callIf h _ _
    simp only [settleFrame]
    split
    · next eq =>
      rw [eq] at called
      exact (handler_resolve _ _ _).trans called
    · next eq =>
      rw [eq] at called
      exact ((handler_giveBack _).trans (handler_resolve _ _ _)).trans called

/-- The opening of an assembler: the application is called, and unless that crashes, a session is
    there from now on. -/
theorem opened_of_assembling {h : Host σ} {a : Assembler} (handler : h.handler = .assembling a)
    (t : Ticket) :
    h.opened app t =
      let r := (h.note (.handed .opened)).callIf app app.hooks.onOpen .opened
      match crash? r.2 with
      | some p => (r.1.drop t, some p)
      | none => ((r.1.under (.assembling a.opened)).resolve t (.ok ()), none) := by
  have same : (h.note (.handed .opened)).handler = .assembling a := handler
  unfold opened
  simp only [same]
  cases called : (h.note (.handed .opened)).callIf app app.hooks.onOpen .opened with
  | mk k reply => cases reply <;> rfl

end Host

/-! ### Handlers apart from hosts -/

/-- What happens to a handler. -/
inductive Happening
  | opened (t : Ticket)
  | frame (f : Frame) (t : Ticket)
  | failed (e : Failure)
  | closed (code : CloseCode)

def Host.undergo (app : Application σ) (h : Host σ) : Happening → Host σ × Option Panic
  | .opened t => h.opened app t
  | .frame f t => h.frame app f t
  | .failed e => h.failed app e
  | .closed code => h.closed app code

/-- What happened to a handler, each time with the host that surrounded it. -/
abbrev History (σ : Type) := List (Host σ × Happening)

/-- An assembler and the memory of its application. -/
structure Attendant (σ : Type) where
  memory : σ
  assembler : Assembler

/-- How a handler responds. -/
structure Aftermath (σ : Type) where
  /-- All that surrounds the handler afterwards: what was called, resolved, demanded and kept. -/
  host : Host σ
  openKind : Option MessageKind
  crash : Option Panic

namespace Attendant

variable {app : Application σ}

/-- An assembler that was just made, with an application that remembers something. -/
def new (memory : σ) : Attendant σ := ⟨memory, .fresh⟩

/-- The handler in its surroundings. -/
def inside (s : Attendant σ) (k : Host σ) : Host σ :=
  { k with memory := s.memory, handler := .assembling s.assembler }

/-- The handler as a host leaves it. -/
def left (s : Attendant σ) (h : Host σ) : Attendant σ where
  memory := h.memory
  assembler := match h.handler with
    | .assembling a => a
    | .direct => s.assembler

def respond (app : Application σ) (s : Attendant σ) (k : Host σ) (x : Happening) :
    Attendant σ × Aftermath σ :=
  let r := (s.inside k).undergo app x
  let next := s.left r.1
  (next, ⟨r.1.under .direct, next.assembler.openKind, r.2⟩)

/-- The handler after all that has happened to it. -/
def after (app : Application σ) (s : Attendant σ) (past : History σ) : Attendant σ :=
  past.foldl (fun s x => (s.respond app x.1 x.2).1) s

def responses (app : Application σ) (s : Attendant σ) : History σ → List (Aftermath σ)
  | [] => []
  | x :: later => (s.respond app x.1 x.2).2 :: (s.respond app x.1 x.2).1.responses app later

end Attendant

/-! ### The message that is half received -/

namespace Assembly.Assembler

/-- The bytes of the message that is open. -/
def pending (a : Assembler) : Bytes := (a.part.map (·.buffer)).getD []

variable {a : Assembler} {hooks : Hooks} {config : Config} {f : Frame}

theorem buffer_of_append {p q : Accumulator} {chunk : Bytes} {limit : Option Nat}
    (appended : p.append chunk limit = .ok q) :
    q.kind = p.kind ∧ q.buffer = p.buffer ++ chunk := by
  unfold Accumulator.append at appended
  split at appended
  · cases appended
  · split at appended
    · cases appended
      exact ⟨rfl, rfl⟩
    · split at appended
      · cases appended
      · cases appended
        exact ⟨rfl, rfl⟩

theorem ofBytes_of_finish {p : Accumulator} {m : Message} (finished : p.finish = .ok m) :
    Message.ofBytes p.kind p.buffer = .ok m := by
  unfold Accumulator.finish at finished
  split at finished
  · next binary =>
    rw [binary]
    exact finished
  · next text =>
    split at finished
    · cases finished
    · rw [text]
      exact finished

/-- What a frame makes of the open message: nothing is open any more, it is open as before, or it has
    the frame's payload behind it; and a message that is complete is what was open, with the payload
    behind it. -/
structure Extends (a : Assembler) (f : Frame) (kind : MessageKind) (e : Effect) : Prop where
  part : e.1.part = none ∨ e.1.part = a.part ∨ e.1.pending = a.pending ++ f.payload
  complete : ∀ m, e.2.2 = .complete m → Message.ofBytes kind (a.pending ++ f.payload) = .ok m

theorem extends_reject (a : Assembler) (f : Frame) (kind : MessageKind) (lines : List Log.Line)
    (e : Failure) : Extends a f kind (a.reject lines e) where
  part := .inl rfl
  complete m completed := by cases completed

theorem extends_takeData {kind : MessageKind} (same : ∀ p ∈ a.part, p.kind = kind)
    (limit : Option Nat) : Extends a f kind (a.takeData kind limit f) := by
  unfold takeData
  split
  · next single =>
    have idle : a.part = none := by simpa using (Bool.and_eq_true_iff.mp single).2
    split
    · next m made =>
      refine ⟨.inr (.inl rfl), fun n completed => ?_⟩
      cases completed
      unfold Message.ofSingleFrame at made
      cases fits : Message.checkSize kind f.payload.length limit with
      | error e =>
        rw [fits] at made
        cases made
      | ok u =>
        rw [fits] at made
        rw [pending, idle]
        exact made
    · exact extends_reject ..
  · dsimp only
    split
    · exact extends_reject ..
    · next q appended =>
      obtain ⟨sort, buffer⟩ := buffer_of_append appended
      have whole : q.buffer = a.pending ++ f.payload := by
        rw [buffer, pending]
        cases a.part <;> rfl
      have kinds : q.kind = kind := by
        rw [sort]
        cases open_ : a.part with
        | none => rfl
        | some p => exact same p open_
      split
      · exact ⟨.inr (.inr whole), fun m completed => by cases completed⟩
      · split
        · next m finished =>
          refine ⟨.inl rfl, fun n completed => ?_⟩
          cases completed
          rw [← whole, ← kinds]
          exact ofBytes_of_finish finished
        · exact extends_reject ..

theorem kind_of_kindOf {op : OpCode} {kind : MessageKind} (found : a.kindOf op = .ok kind) :
    ∀ p ∈ a.part, p.kind = kind := by
  intro p open_
  rw [kindOf, Option.mem_def.mp open_] at found
  cases sort : MessageKind.ofOpCode? op with
  | none =>
    rw [sort] at found
    cases found
    rfl
  | some k =>
    rw [sort] at found
    cases found

theorem refused_of_orphan (unclosed : a.closed = false) (idle : a.part = none)
    (more : f.op = .continuation) : (a.step hooks config f).2.2 = .refused orphan := by
  simp [step, more, data, unclosed, kindOf, idle, MessageKind.ofOpCode?, reject]

/-- Nothing is delivered but what was open and the payload of the frame. -/
theorem extends_step (a : Assembler) (hooks : Hooks) (config : Config) (f : Frame) :
    ∃ kind, (∀ p ∈ a.part, p.kind = kind) ∧ Extends a f kind (a.step hooks config f) := by
  obtain ⟨kind, same⟩ : ∃ kind, ∀ p ∈ a.part, p.kind = kind := by
    cases a.part with
    | none => exact ⟨.text, by simp⟩
    | some p => exact ⟨p.kind, by simp⟩
  have taken : ∃ kind, (∀ p ∈ a.part, p.kind = kind) ∧ Extends a f kind (a.data hooks config f) := by
    unfold data
    split
    · exact ⟨kind, same, .inr (.inl rfl), fun m completed => by cases completed⟩
    · split
      · exact ⟨kind, same, extends_reject ..⟩
      · next found =>
        have same := kind_of_kindOf found
        split
        · exact ⟨_, same, extends_takeData same _⟩
        · exact ⟨_, same, extends_reject ..⟩
  unfold step
  split
  · exact ⟨kind, same, .inr (.inl rfl), fun m completed => by cases completed⟩
  · exact ⟨kind, same, .inr (.inl rfl), fun m completed => by cases completed⟩
  · exact ⟨kind, same, .inl rfl, fun m completed => by cases completed⟩
  all_goals exact taken

end Assembly.Assembler

/-! ### Histories -/

/-- The bytes that a frame has brought. -/
def Happening.payload : Happening → Bytes
  | .frame f _ => f.payload
  | .opened _ | .failed _ | .closed _ => []

/-- What leaves no message open. -/
def Happening.clears : Happening → Bool
  | .frame f _ => f.op = .close
  | .failed _ | .closed _ => true
  | .opened _ => false

/-- All bytes that were received. -/
def History.bytes (past : History σ) : Bytes := past.flatMap (·.2.payload)

namespace Attendant

variable {app : Application σ}

theorem after_concat (s : Attendant σ) (past : History σ) (x : Host σ × Happening) :
    s.after app (past ++ [x]) = ((s.after app past).respond app x.1 x.2).1 := by
  rw [after, List.foldl_append]
  rfl

theorem left_of_assembling (s : Attendant σ) {h : Host σ} {a : Assembler}
    (handler : h.handler = .assembling a) : s.left h = ⟨h.memory, a⟩ := by
  rw [left, handler]

theorem respond_of_eq {s : Attendant σ} {k h : Host σ} {x : Happening} {crash : Option Panic}
    {a : Assembler} (undergone : (s.inside k).undergo app x = (h, crash))
    (handler : h.handler = .assembling a) :
    s.respond app k x = (⟨h.memory, a⟩, ⟨h.under .direct, a.openKind, crash⟩) := by
  unfold respond
  rw [undergone]
  simp only [left_of_assembling s handler]

/-- The application is called in the same way, whatever the assembler. -/
theorem respond_opened (app : Application σ) (s : Attendant σ) (k : Host σ) (t : Ticket) :
    let reopened := s.respond app k (.opened t)
    let anew := (new s.memory).respond app k (.opened t)
    reopened.2.host = anew.2.host ∧ reopened.2.crash = anew.2.crash ∧
      if anew.2.crash = none then
        reopened.1 = ⟨anew.1.memory, s.assembler.opened⟩ ∧ anew.1.assembler = Assembler.fresh.opened
      else reopened.1 = ⟨anew.1.memory, s.assembler⟩ := by
  let r := (((new s.memory).inside k).note (.handed .opened)).callIf app app.hooks.onOpen .opened
  let x : Handler := .assembling s.assembler
  have called : ((s.inside k).note (.handed .opened)).callIf app app.hooks.onOpen .opened =
      (r.1.under x, r.2) :=
    Host.callIf_under (((new s.memory).inside k).note (.handed .opened)) x app.hooks.onOpen .opened
  have kept : r.1.handler = .assembling .fresh :=
    Host.handler_callIf (((new s.memory).inside k).note (.handed .opened)) app.hooks.onOpen .opened
  have first : (s.inside k).opened app t = _ := Host.opened_of_assembling (a := s.assembler) rfl t
  have second : ((new s.memory).inside k).opened app t = _ :=
    Host.opened_of_assembling (a := .fresh) rfl t
  rw [called] at first
  dsimp only at first second
  cases crashed : Host.crash? r.2 with
  | some p =>
    rw [crashed] at first second
    dsimp only at first second
    rw [Host.drop, Host.resolve_under] at first
    have same : (r.1.drop t).handler = .assembling .fresh :=
      (Host.handler_resolve r.1 t _).trans kept
    rw [respond_of_eq (x := .opened t) first rfl, respond_of_eq (x := .opened t) second same]
    exact ⟨rfl, rfl, rfl⟩
  | none =>
    rw [crashed] at first second
    dsimp only at first second
    rw [Host.resolve_under, Host.resolve_under] at first
    rw [Host.resolve_under] at second
    rw [respond_of_eq (x := .opened t) first rfl, respond_of_eq (x := .opened t) second rfl]
    exact ⟨rfl, rfl, rfl, rfl⟩

/-- An opening does nothing about the message that is open. -/
theorem part_opened (s : Attendant σ) (k : Host σ) (t : Ticket) :
    (s.respond app k (.opened t)).1.assembler.part = s.assembler.part := by
  obtain ⟨-, -, next⟩ := respond_opened app s k t
  split at next
  · rw [next.1]
    rfl
  · rw [next]

theorem assembler_of_handler {s : Attendant σ} {k : Host σ} {x : Happening} {a : Assembler}
    (handler : ((s.inside k).undergo app x).1.handler = .assembling a) :
    (s.respond app k x).1.assembler = a := by
  unfold respond
  simp only [left_of_assembling s handler]

theorem assembler_frame (s : Attendant σ) (k : Host σ) (f : Frame) (t : Ticket) :
    (s.respond app k (.frame f t)).1.assembler =
      (s.assembler.step app.hooks k.session.config f).1 :=
  assembler_of_handler ((Host.handler_settleFrame _ _ _ _).trans (Host.handler_foldl_log _ _))

theorem assembler_failed (s : Attendant σ) (k : Host σ) (e : Failure) :
    (s.respond app k (.failed e)).1.assembler = s.assembler.failed :=
  assembler_of_handler (Host.handler_callIf _ _ _)

theorem assembler_closed (s : Attendant σ) (k : Host σ) (code : CloseCode) :
    (s.respond app k (.closed code)).1.assembler = s.assembler.ended :=
  assembler_of_handler (Host.handler_callIf _ _ _)

/-- A failure, a CLOSE frame and the end of the connection leave no message open. -/
theorem openKind_of_clears (s : Attendant σ) (k : Host σ) {x : Happening}
    (clears : x.clears = true) : (s.respond app k x).1.assembler.openKind = none := by
  cases x with
  | opened t => cases clears
  | failed e =>
    rw [assembler_failed]
    rfl
  | closed code =>
    rw [assembler_closed]
    rfl
  | frame f t =>
    have close : f.op = .close := of_decide_eq_true clears
    rw [assembler_frame, Assembler.step, close]
    rfl

/-- What is half received was received. -/
theorem pending_after (app : Application σ) (memory : σ) (past : History σ) :
    ((new memory).after app past).assembler.pending.Sublist (History.bytes past) := by
  induction past using List.reverseRecOn with
  | nil => exact List.Sublist.refl []
  | append_singleton past x ih =>
    obtain ⟨k, x⟩ := x
    have bytes : History.bytes (past ++ [(k, x)]) = History.bytes past ++ x.payload := by
      simp [History.bytes]
    rw [after_concat, bytes]
    generalize (new memory).after app past = s at ih ⊢
    -- A part that is gone, or is the one there was, holds nothing new.
    have old {a : Assembler} (part : a.part = none ∨ a.part = s.assembler.part) :
        a.pending.Sublist (History.bytes past ++ x.payload) := by
      unfold Assembler.pending
      rcases part with gone | same
      · rw [gone]
        exact List.nil_sublist _
      · rw [same]
        exact ih.trans (List.sublist_append_left _ _)
    cases x with
    | opened t => exact old (.inr (part_opened _ k t))
    | failed e => exact old (.inl (by rw [assembler_failed]; rfl))
    | closed code => exact old (.inl (by rw [assembler_closed]; rfl))
    | frame f t =>
      obtain ⟨kind, -, more⟩ := s.assembler.extends_step app.hooks k.session.config f
      rw [assembler_frame]
      rcases more.part with gone | same | longer
      · exact old (.inl gone)
      · exact old (.inr same)
      · rw [longer]
        exact ih.append (List.Sublist.refl f.payload)

/-! ### Opened again -/

/-- A handler that is opened again calls, resolves and demands what a new one does that remembers the
    same.  Then it responds like the new one to whatever comes later, exactly if it had no message
    half received; otherwise it goes on with that message, and with bytes that came before, where the
    new one refuses to.  Nothing is half received right after a failure, a CLOSE frame or the end of
    the connection. -/
theorem reopened_like_new_iff (app : Application σ) (memory : σ) (past : History σ) (k : Host σ)
    (t : Ticket) :
    let s := (new memory).after app past
    let reopened := s.respond app k (.opened t)
    let anew := (new s.memory).respond app k (.opened t)
    reopened.2.host = anew.2.host ∧ reopened.2.crash = anew.2.crash ∧
      (anew.2.crash = none →
        ((∀ later, reopened.1.responses app later = anew.1.responses app later) ↔
          s.assembler.openKind = none) ∧
        ∀ kind, s.assembler.openKind = some kind → s.assembler.pending.Sublist (History.bytes past) ∧
          ∀ config f, f.op = .continuation →
            (anew.1.assembler.step app.hooks config f).2.2 = .refused Assembler.orphan ∧
            ∀ m, (reopened.1.assembler.step app.hooks config f).2.2 = .complete m →
              Message.ofBytes kind (s.assembler.pending ++ f.payload) = .ok m) ∧
      ∀ earlier x, past = earlier ++ [x] → x.2.clears = true → s.assembler.openKind = none := by
  intro s reopened anew
  obtain ⟨host, crash, next⟩ := respond_opened app s k t
  refine ⟨host, crash, fun calm => ?_, ?_⟩
  · obtain ⟨again, first⟩ : reopened.1 = ⟨anew.1.memory, s.assembler.opened⟩ ∧
        anew.1.assembler = Assembler.fresh.opened := by rwa [if_pos calm] at next
    refine ⟨⟨fun alike => ?_, fun idle later => ?_⟩, fun kind half => ⟨?_, fun config f more => ?_⟩⟩
    · -- A PING is enough to see that a message is open.
      have shown := alike [(k, .frame (.ping []) t)]
      simp only [responses, List.cons.injEq, and_true] at shown
      have kinds := congrArg Aftermath.openKind shown
      have seen (r : Attendant σ) :
          (r.respond app k (.frame (.ping []) t)).2.openKind = r.assembler.openKind :=
        (congrArg Assembler.openKind (assembler_frame r k (.ping []) t) :)
      rw [seen, seen, again, first] at kinds
      exact kinds
    · have same : reopened.1 = anew.1 := by
        have empty : s.assembler.part = none := by simpa [Assembler.openKind] using idle
        have opened : s.assembler.opened = Assembler.fresh.opened := by
          rw [Assembler.opened, empty]
          rfl
        rw [again, opened, ← first]
      rw [same]
    · exact pending_after app memory past
    · refine ⟨?_, fun m completed => ?_⟩
      · rw [first]
        exact Assembler.refused_of_orphan rfl rfl more
      · rw [again] at completed
        obtain ⟨kind', sort, extended⟩ :=
          s.assembler.opened.extends_step app.hooks config f
        obtain ⟨p, open_, rfl⟩ := Option.map_eq_some_iff.mp half
        rw [sort p open_]
        exact extended.complete m completed
  · rintro earlier ⟨k', x⟩ rfl clears
    show ((new memory).after app (earlier ++ [(k', x)])).assembler.openKind = none
    rw [after_concat]
    exact openKind_of_clears _ k' clears

/-- A handler that was closed with a message half received and is opened again: what comes then is
    taken as it would be by a new one. -/
theorem reopened_like_new_after_close :
    let app : Application Unit :=
      ⟨{ Hooks.none with onBinary := true }, fun s _ => (s, ⟨[], .succeed⟩), fun _ => false⟩
    let k : Host Unit := (Connection.create () .direct ⟨1⟩ .standard .zero .empty).host
    let t : Ticket := .root .silent
    let past : History Unit :=
      [(k, .opened t), (k, .frame ⟨.binary, false, [1]⟩ t), (k, .closed .normal)]
    let reopened := (((new ()).after app past).respond app k (.opened t)).1
    let anew := ((new ()).respond app k (.opened t)).1
    (∀ later, reopened.responses app later = anew.responses app later) ∧
      (anew.responses app [(k, .frame ⟨.binary, true, [2]⟩ t)]).map (·.host.calls) =
        [[.message (.binary [2])]] := by
  intro app k t past reopened anew
  obtain ⟨-, -, alike, -⟩ := reopened_like_new_iff app () past k t
  exact ⟨(alike (by decide)).1.mpr (by decide), by decide⟩

/-- A handler that is opened again with a message half received: it goes on with that message, where
    a new one refuses to. -/
theorem delivered_across_opening :
    let app : Application Unit :=
      ⟨{ Hooks.none with onBinary := true }, fun s _ => (s, ⟨[], .succeed⟩), fun _ => false⟩
    let k : Host Unit := (Connection.create () .direct ⟨1⟩ .standard .zero .empty).host
    let t : Ticket := .root .silent
    let past : History Unit := [(k, .opened t), (k, .frame ⟨.binary, false, [1]⟩ t)]
    let later : History Unit := [(k, .frame ⟨.continuation, true, [2]⟩ (.root (.driver 0)))]
    let reopened := (((new ()).after app past).respond app k (.opened t)).1
    let anew := ((new ()).respond app k (.opened t)).1
    (reopened.responses app later).map (fun r => (r.host.calls, r.host.verdict)) =
        [([.message (.binary [1, 2])], some (.ok ()))] ∧
      (anew.responses app later).map (fun r => (r.host.calls, r.host.verdict)) =
        [([], some (.error Assembler.orphan))] := by
  decide

end Attendant

end WebSocketEngine
