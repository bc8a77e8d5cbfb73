import WebSocketEngine.Proofs.Host.Docket

/-!
Two hosts to which the same things are done.

The gist of a host is all that its future depends on, as long as nobody but the driver has turns,
and the calls of the application that were not about PING and PONG frames.  Tokens, times, counters
and the record are no part of it.  So two hosts of the same gist that do the same thing have the
same gist afterwards, and accept the same frames meanwhile (`Alike`).
-/

namespace WebSocketEngine

variable {σ : Type}

/-- The call is about a PING or PONG frame. -/
def Call.isControl : Call → Bool
  | .control _ => true
  | .opened | .message _ | .frame _ | .failed _ | .closed _ => false

namespace Host

/-! ### The gist -/

/-- What the future of a host depends on, and the calls that were not about PING and PONG frames. -/
structure Gist (σ : Type) where
  memory : σ
  config : Config
  handler : Handler
  demand : UInt64
  closeSent : Bool
  /-- The writer is there. -/
  writing : Bool
  abortReason : Option Failure
  shutdown : Bool
  verdict : Option Outcome
  calls : List Call

/-- The calls of the application that were not about PING and PONG frames. -/
def heard (h : Host σ) : List Call := h.calls.filter (!·.isControl)

def gist (h : Host σ) : Gist σ where
  memory := h.memory
  config := h.session.config
  handler := h.handler
  demand := h.session.demand
  closeSent := h.session.closeSent
  writing := h.session.outbox.isSome
  abortReason := h.session.abortReason
  shutdown := h.shutdown
  verdict := h.verdict
  calls := h.heard

variable {app : Application σ} {h k h' k' l : Host σ} {fs gs : List Frame}

theorem heard_note (h : Host σ) (n : Note) :
    (h.note n).heard = h.heard ++ n.call?.toList.filter (!·.isControl) := by
  rw [heard, calls, record_note, List.filter_append, heard]

theorem attached_of_gist (same : k.gist = h.gist) : k.attached = h.attached := by
  have handler : k.handler = h.handler := congrArg Gist.handler same
  rw [attached, attached, handler]

theorem demanding_of_gist (same : k.gist = h.gist) : k.demanding app = h.demanding app := by
  have handler : k.handler = h.handler := congrArg Gist.handler same
  have config : k.session.config = h.session.config := congrArg Gist.config same
  have memory : k.memory = h.memory := congrArg Gist.memory same
  rw [demanding, demanding, handler, config, memory]

/-! ### Nothing that matters -/

/-- Nothing that matters has changed. -/
structure Aloof (h k : Host σ) : Prop where
  gist : k.gist = h.gist
  accepted : k.accepted = h.accepted
  tidy : h.Tidy → k.Tidy

theorem Aloof.trans (first : Aloof h k) (second : Aloof k l) : Aloof h l where
  gist := second.gist.trans first.gist
  accepted := second.accepted.trans first.accepted
  tidy tidy := second.tidy (first.tidy tidy)

theorem aloof_refl (h : Host σ) : Aloof h h := ⟨rfl, rfl, fun tidy => tidy⟩

/-- The record grows by something that is neither an accepted frame nor a call but of a PING or PONG
    frame. -/
theorem aloof_note (h : Host σ) {n : Note} (unheard : n.call?.toList.filter (!·.isControl) = [])
    (unaccepted : n.frame? = none) : Aloof h (h.note n) := by
  have heard : (h.note n).heard = h.heard := by
    rw [heard_note, unheard]
    exact List.append_nil _
  refine ⟨?_, ?_, fun tidy => ⟨tidy.ready, tidy.parked, tidy.outbox⟩⟩
  · rw [Host.gist, heard]
    rfl
  · rw [accepted, record_note, unaccepted]
    exact List.append_nil _

theorem aloof_log (h : Host σ) (l : Log.Line) : Aloof h (h.log l) := aloof_note h rfl rfl

theorem aloof_foldl_log (h : Host σ) (lines : List Log.Line) : Aloof h (lines.foldl log h) := by
  induction lines generalizing h with
  | nil => exact aloof_refl h
  | cons l lines ih => exact (aloof_log h l).trans (ih _)

theorem aloof_count (h : Host σ) (m : Metric) : Aloof h (h.count m) :=
  ⟨rfl, rfl, fun tidy => ⟨tidy.ready, tidy.parked, tidy.outbox⟩⟩

theorem aloof_wake (h : Host σ) : Aloof h (h.wake .driver) := ⟨rfl, rfl, Tidy.wake⟩

/-- Work of others is resolved. -/
theorem aloof_resolve (h : Host σ) {t : Ticket} (outside : t.sink.Outside) (o : Outcome) :
    Aloof h (h.resolve t o) := by
  have booked : Aloof h { h with ledger := (h.ledger.resolve t o).1 } :=
    ⟨rfl, rfl, fun tidy => ⟨tidy.ready, tidy.parked, tidy.outbox⟩⟩
  refine booked.trans ?_
  show Aloof _ (Host.deliver _ (h.ledger.resolve t o).2)
  rcases h.ledger.resolve_sink t o with none | ⟨whole, some⟩
  · rw [none]
    exact aloof_refl _
  · rw [some]
    cases sink : t.sink with
    | silent => exact aloof_refl _
    | caller n => exact aloof_note _ rfl rfl
    | driver n =>
      rw [sink] at outside
      exact outside.elim

/-! ### The same things -/

/-- Two hosts of the same gist, and what they have accepted since `fs` and `gs` is the same; only
    the driver has turns. -/
structure Alike (fs gs : List Frame) (h k : Host σ) : Prop where
  gist : k.gist = h.gist
  accepted : ∃ new, h.accepted = fs ++ new ∧ k.accepted = gs ++ new
  tidy : h.Tidy

theorem alike_of_gist (gist : k.gist = h.gist) (tidy : h.Tidy) :
    Alike h.accepted k.accepted h k :=
  ⟨gist, ⟨[], (List.append_nil _).symm, (List.append_nil _).symm⟩, tidy⟩

theorem Alike.aloof (alike : Alike fs gs h k) (first : Aloof h h') (second : Aloof k k') :
    Alike fs gs h' k' where
  gist := second.gist.trans (alike.gist.trans first.gist.symm)
  accepted := by
    rw [first.accepted, second.accepted]
    exact alike.accepted
  tidy := first.tidy alike.tidy

/-- Both gists change in the same way, and nothing is accepted. -/
theorem Alike.onward (alike : Alike fs gs h k) (change : Gist σ → Gist σ)
    (first : h'.gist = change h.gist) (second : k'.gist = change k.gist)
    (accepted : h'.accepted = h.accepted) (accepted' : k'.accepted = k.accepted)
    (tidy : h'.Tidy) : Alike fs gs h' k' where
  gist := by rw [first, second, alike.gist]
  accepted := by
    rw [accepted, accepted']
    exact alike.accepted
  tidy := tidy

theorem alike_note (alike : Alike fs gs h k) {n : Note} (unaccepted : n.frame? = none) :
    Alike fs gs (h.note n) (k.note n) := by
  let change (g : Gist σ) : Gist σ :=
    { g with calls := g.calls ++ n.call?.toList.filter (!·.isControl) }
  have noted (h : Host σ) : (h.note n).gist = change h.gist := by
    rw [gist, heard_note]
    rfl
  have same (h : Host σ) : (h.note n).accepted = h.accepted := by
    rw [accepted, record_note, unaccepted]
    exact List.append_nil _
  exact alike.onward change (noted h) (noted k) (same h) (same k)
    ⟨alike.tidy.ready, alike.tidy.parked, alike.tidy.outbox⟩

theorem alike_grant (alike : Alike fs gs h k) (n : UInt64) :
    Alike fs gs (h.grant n) (k.grant n) :=
  alike.onward (fun g => { g with demand := g.demand + n }) rfl rfl rfl rfl (alike.tidy.grant n)

theorem alike_giveBack (alike : Alike fs gs h k) : Alike fs gs h.giveBack k.giveBack := by
  have config : k.session.config = h.session.config := congrArg Gist.config alike.gist
  unfold giveBack
  rw [config, attached_of_gist alike.gist]
  split
  · exact alike_grant alike 1
  · exact alike

theorem alike_configure (alike : Alike fs gs h k) (f : Config → Config) :
    Alike fs gs (h.configure f) (k.configure f) :=
  alike.onward (fun g => { g with config := f g.config }) rfl rfl rfl rfl
    ⟨alike.tidy.ready, alike.tidy.parked, alike.tidy.outbox⟩

theorem alike_stop (alike : Alike fs gs h k) : Alike fs gs h.stop k.stop := by
  refine alike.onward (fun g => { g with shutdown := true }) rfl rfl rfl rfl ?_
  exact Tidy.wake ⟨alike.tidy.ready, alike.tidy.parked, alike.tidy.outbox⟩

theorem alike_abort (alike : Alike fs gs h k) (e : Failure) :
    Alike fs gs (h.abort e) (k.abort e) := by
  have reason : k.session.abortReason = h.session.abortReason :=
    congrArg Gist.abortReason alike.gist
  unfold abort
  rw [reason]
  split
  · exact alike
  · have logged := alike.aloof (aloof_log h (abortedLine h.session.id e))
      (aloof_log k (abortedLine k.session.id e))
    refine logged.onward (fun g => { g with abortReason := some e }) rfl rfl rfl rfl ?_
    exact Tidy.wake ⟨logged.tidy.ready, logged.tidy.parked, logged.tidy.outbox⟩

/-- The token of the driver's last callback, or one that is derived from it. -/
def Mine (h : Host σ) : Ticket → Prop
  | .root s => s = .driver h.callbacks
  | .derived t => h.Mine t
  | .part _ _ => False

theorem Mine.of_callbacks {t : Ticket} (mine : h.Mine t) (same : k.callbacks = h.callbacks) :
    k.Mine t := by
  induction t with
  | root s => exact (mine : s = _).trans (by rw [same])
  | derived t ih => exact ih mine
  | part n t => exact mine

theorem resolve_mine {t : Ticket} (mine : h.Mine t) (o : Outcome) :
    h.resolve t o = { h with verdict := some o }.wake .driver := by
  induction t with
  | root s =>
    obtain rfl : s = .driver h.callbacks := mine
    exact resolve_callback h o
  | derived t ih => exact ih mine
  | part n t => exact mine.elim

/-- Each of the two resolves the token of its own driver. -/
theorem alike_resolve (alike : Alike fs gs h k) {t t' : Ticket} (mine : h.Mine t)
    (theirs : k.Mine t') (o : Outcome) : Alike fs gs (h.resolve t o) (k.resolve t' o) := by
  rw [resolve_mine mine, resolve_mine theirs]
  refine alike.onward (fun g => { g with verdict := some o }) rfl rfl rfl rfl ?_
  exact Tidy.wake ⟨alike.tidy.ready, alike.tidy.parked, alike.tidy.outbox⟩

/-! ### Sending -/

theorem alike_accept (alike : Alike fs gs h k) {f : Frame} {batch : Bool} {t t' : Ticket}
    (outside : t.sink.Outside) {queue queue' : List Outbound}
    (writer : h.session.outbox = some queue) :
    Alike fs gs (h.accept ⟨f, t, batch⟩ queue) (k.accept ⟨f, t', batch⟩ queue') := by
  obtain ⟨new, first, second⟩ := alike.accepted
  have taken (h : Host σ) (out : Outbound) (queue : List Outbound) :
      (h.accept out queue).gist =
        { h.gist with closeSent := out.frame.op = OpCode.close, writing := true } := rfl
  have added (h : Host σ) (out : Outbound) (queue : List Outbound) :
      (h.accept out queue).accepted = h.accepted ++ [out.frame] := record_note _ _ _
  refine ⟨?_, ⟨new ++ [f], ?_, ?_⟩, alike.tidy.ready, alike.tidy.parked, ?_⟩
  · rw [taken, taken, alike.gist]
  · rw [added, first, List.append_assoc]
  · rw [added, second, List.append_assoc]
  · intro after eq o mem
    cases eq
    rcases List.mem_append.mp mem with old | fresh
    · exact alike.tidy.outbox queue writer o old
    · rw [List.mem_singleton.mp fresh]
      exact outside

theorem alike_send (alike : Alike fs gs h k) (f : Frame) {t t' : Ticket}
    (outside : t.sink.Outside) (outside' : t'.sink.Outside) (batch : Bool) :
    Alike fs gs (h.send f t batch) (k.send f t' batch) := by
  have closed : k.session.closeSent = h.session.closeSent := congrArg Gist.closeSent alike.gist
  have writing : k.session.outbox.isSome = h.session.outbox.isSome :=
    congrArg Gist.writing alike.gist
  cases sent : h.session.closeSent with
  | true =>
    rw [send_of_closed h sent, send_of_closed k (closed.trans sent)]
    exact alike.aloof (aloof_resolve h outside _) (aloof_resolve k outside' _)
  | false =>
    cases writer : h.session.outbox with
    | some queue =>
      rw [writer] at writing
      obtain ⟨queue', writer'⟩ := Option.isSome_iff_exists.mp writing
      rw [send_of_open h sent writer, send_of_open k (closed.trans sent) writer']
      exact alike_accept alike outside writer
    | none =>
      rw [writer] at writing
      have gone := Option.isSome_eq_false_iff.mp writing
      rw [send_of_gone h sent writer,
        send_of_gone k (closed.trans sent) (Option.isNone_iff_eq_none.mp gone)]
      have lost : Alike fs gs (h.lose f) (k.lose f) :=
        alike.onward (fun g => { g with closeSent := f.op = OpCode.close }) rfl rfl rfl rfl
          ⟨alike.tidy.ready, alike.tidy.parked, alike.tidy.outbox⟩
      exact lost.aloof (aloof_resolve _ outside _) (aloof_resolve _ outside' _)

theorem alike_sendMessage (alike : Alike fs gs h k) (kind : MessageKind) (chunks : List Bytes)
    {t t' : Ticket} (outside : t.sink.Outside) (outside' : t'.sink.Outside) (batch : Bool) :
    Alike fs gs (h.sendMessage kind chunks t batch) (k.sendMessage kind chunks t' batch) := by
  have each (parts : List Frame) {h k : Host σ} (alike : Alike fs gs h k) {t t' : Ticket}
      (outside : t.sink.Outside) (outside' : t'.sink.Outside) :
      Alike fs gs (parts.foldl (fun k f => k.send f t (batch || !f.fin)) h)
        (parts.foldl (fun k f => k.send f t' (batch || !f.fin)) k) := by
    induction parts generalizing h k with
    | nil => exact alike
    | cons f parts ih => exact ih (alike_send alike f outside outside' _)
  have shared (h : Host σ) (n : Nat) : Aloof h (h.share n) :=
    ⟨rfl, rfl, fun tidy => ⟨tidy.ready, tidy.parked, tidy.outbox⟩⟩
  rw [sendMessage_eq, sendMessage_eq]
  exact each _ (alike.aloof (shared h _) (shared k _)) outside outside'

/-! ### The application -/

theorem alike_perform (alike : Alike fs gs h k) (a : Act) :
    Alike fs gs (h.perform a) (k.perform a) := by
  cases a with
  | change c => exact alike_configure alike (·.apply c)
  | setIdleTimeout d => exact alike_configure alike (·.setIdleTimeout d)
  | demand n => exact alike_grant alike n
  | send f batch caller =>
    exact alike_send alike f (outside_ticketFor caller) (outside_ticketFor caller) batch
  | sendMessage kind chunks batch caller =>
    exact alike_sendMessage alike kind chunks (outside_ticketFor caller) (outside_ticketFor caller)
      batch
  | abort e => exact alike_abort alike e
  | shutdown => exact alike_stop alike

theorem alike_foldl_perform (alike : Alike fs gs h k) (acts : List Act) :
    Alike fs gs (acts.foldl perform h) (acts.foldl perform k) := by
  induction acts generalizing h k with
  | nil => exact alike
  | cons a acts ih => exact ih (alike_perform alike a)

/-- Two results, with hosts that are alike. -/
structure Alikes {α : Type} (fs gs : List Frame) (r s : Host σ × α) : Prop where
  host : Alike fs gs r.1 s.1
  answer : s.2 = r.2

theorem alike_call (app : Application σ) (alike : Alike fs gs h k) (c : Call) :
    Alikes fs gs (h.call app c) (k.call app c) := by
  have memory : k.memory = h.memory := congrArg Gist.memory alike.gist
  unfold call
  rw [memory]
  have told : Alike fs gs { h with memory := (app.react h.memory c).1 }
      { k with memory := (app.react h.memory c).1 } :=
    alike.onward (fun g => { g with memory := (app.react h.memory c).1 }) rfl rfl rfl rfl
      ⟨alike.tidy.ready, alike.tidy.parked, alike.tidy.outbox⟩
  exact ⟨alike_foldl_perform (alike_note told rfl) _, rfl⟩

theorem alike_callIf (app : Application σ) (alike : Alike fs gs h k) (installed : Bool) (c : Call) :
    Alikes fs gs (h.callIf app installed c) (k.callIf app installed c) := by
  cases installed with
  | false => exact ⟨alike, rfl⟩
  | true => exact alike_call app alike c

theorem callbacks_callIf (app : Application σ) (h : Host σ) (installed : Bool) (c : Call) :
    (h.callIf app installed c).1.callbacks = h.callbacks := by
  cases installed with
  | false => rfl
  | true => exact (congrArg Host.callbacks (core_call app h c) :)

theorem alike_handle (alike : Alike fs gs h k) (handler : Handler) :
    Alike fs gs { h with handler } { k with handler } :=
  alike.onward (fun g => { g with handler }) rfl rfl rfl rfl
    ⟨alike.tidy.ready, alike.tidy.parked, alike.tidy.outbox⟩

/-! ### The driver's callbacks -/

theorem mine_callIf (app : Application σ) {t : Ticket} (mine : h.Mine t) (installed : Bool)
    (c : Call) : (h.callIf app installed c).1.Mine t :=
  mine.of_callbacks (callbacks_callIf app h installed c)

section Callbacks

variable {t t' : Ticket} (mine : h.Mine t) (theirs : k.Mine t')
include mine theirs

theorem alike_answer (alike : Alike fs gs h k) (reply : Reply) :
    Alikes fs gs (h.answer t reply) (k.answer t' reply) := by
  have resolved (o : Outcome) := alike_resolve alike mine theirs o
  cases reply with
  | succeed | fail _ | drop | panic _ => exact ⟨resolved _, rfl⟩
  | hold =>
    have held (h : Host σ) (t : Ticket) : Aloof h { h with held := h.held ++ [t] } :=
      ⟨rfl, rfl, fun tidy => ⟨tidy.ready, tidy.parked, tidy.outbox⟩⟩
    exact ⟨alike.aloof (held h t) (held k t'), rfl⟩

theorem alike_answer_call (app : Application σ) (alike : Alike fs gs h k) (c : Call) :
    Alikes fs gs ((h.call app c).1.answer t (h.call app c).2)
      ((k.call app c).1.answer t' (k.call app c).2) := by
  have called := alike_call app alike c
  rw [called.answer]
  exact alike_answer (mine_callIf app mine true c) (mine_callIf app theirs true c) called.host _

theorem alike_opened (app : Application σ) (alike : Alike fs gs h k) :
    Alikes fs gs (h.opened app t) (k.opened app t') := by
  have noted := alike_note alike (n := .handed .opened) rfl
  have mine : (h.note (.handed .opened)).Mine t := mine.of_callbacks rfl
  have theirs : (k.note (.handed .opened)).Mine t' := theirs.of_callbacks rfl
  have handler := congrArg Gist.handler noted.gist
  dsimp only [gist] at handler
  unfold opened
  dsimp only
  generalize h.note (.handed .opened) = h' at *
  generalize k.note (.handed .opened) = k' at *
  rw [handler]
  cases h'.handler with
  | direct => exact alike_answer_call mine theirs app noted .opened
  | assembling a =>
    have called := alike_callIf app noted app.hooks.onOpen .opened
    have mine := mine_callIf app mine app.hooks.onOpen .opened
    have theirs := mine_callIf app theirs app.hooks.onOpen .opened
    generalize h'.callIf app app.hooks.onOpen .opened = r at *
    generalize k'.callIf app app.hooks.onOpen .opened = s at *
    obtain ⟨r, reply⟩ := r
    obtain ⟨s, reply'⟩ := s
    obtain ⟨called, rfl⟩ := called
    have opened := alike_resolve (alike_handle called (.assembling a.opened))
      (mine.of_callbacks rfl) (theirs.of_callbacks rfl) (.ok ())
    cases reply' with
    | panic p => exact ⟨alike_resolve called mine theirs _, rfl⟩
    | succeed | fail _ | drop | hold => exact ⟨opened, rfl⟩

theorem alike_settleFrame (app : Application σ) (alike : Alike fs gs h k) (f : Frame)
    (verdict : Assembly.Verdict) :
    Alikes fs gs (h.settleFrame app f t verdict) (k.settleFrame app f t' verdict) := by
  have resolved (o : Outcome) := alike_resolve alike mine theirs o
  cases verdict with
  | ended | refused _ => exact ⟨resolved _, rfl⟩
  | taken => exact ⟨alike_giveBack (resolved _), rfl⟩
  | complete message =>
    dsimp only [settleFrame]
    split
    · have mine : h.Mine (.derived t) := mine
      have theirs : k.Mine (.derived t') := theirs
      exact alike_answer_call mine theirs app alike _
    · exact ⟨resolved _, rfl⟩
  | control =>
    have called := alike_callIf app alike app.hooks.onControl (.control f)
    have mine := mine_callIf app mine app.hooks.onControl (.control f)
    have theirs := mine_callIf app theirs app.hooks.onControl (.control f)
    dsimp only [settleFrame]
    generalize h.callIf app app.hooks.onControl (.control f) = r at *
    generalize k.callIf app app.hooks.onControl (.control f) = s at *
    obtain ⟨r, reply⟩ := r
    obtain ⟨s, reply'⟩ := s
    obtain ⟨called, rfl⟩ := called
    have resolved (o : Outcome) := alike_resolve called mine theirs o
    cases reply' with
    | panic p => exact ⟨resolved _, rfl⟩
    | succeed | fail _ | drop | hold => exact ⟨alike_giveBack (resolved _), rfl⟩

theorem alike_frame (app : Application σ) (alike : Alike fs gs h k) (f : Frame) :
    Alikes fs gs (h.frame app f t) (k.frame app f t') := by
  have noted := alike_note alike (n := .handed (.frame f)) rfl
  have mine : (h.note (.handed (.frame f))).Mine t := mine.of_callbacks rfl
  have theirs : (k.note (.handed (.frame f))).Mine t' := theirs.of_callbacks rfl
  have handler := congrArg Gist.handler noted.gist
  have config := congrArg Gist.config noted.gist
  dsimp only [gist] at handler config
  unfold frame
  dsimp only
  generalize h.note (.handed (.frame f)) = h' at *
  generalize k.note (.handed (.frame f)) = k' at *
  rw [handler, config]
  cases h'.handler with
  | direct => exact alike_answer_call mine theirs app noted (.frame f)
  | assembling a =>
    let effect := a.step app.hooks h'.session.config f
    have stepped := (alike_handle noted (.assembling effect.1)).aloof
      (aloof_foldl_log _ effect.2.1) (aloof_foldl_log _ effect.2.1)
    have callbacks (h : Host σ) :
        (effect.2.1.foldl log { h with handler := .assembling effect.1 }).callbacks = h.callbacks :=
      congrArg Front.callbacks (front_foldl_log _ effect.2.1)
    exact alike_settleFrame (mine.of_callbacks (callbacks _)) (theirs.of_callbacks (callbacks _))
      app stepped f effect.2.2

end Callbacks

/-! ### The end -/

theorem alike_endAssembly (alike : Alike fs gs h k) (f : Assembly.Assembler → Assembly.Assembler) :
    Alike fs gs (h.endAssembly f) (k.endAssembly f) := by
  have handler : k.handler = h.handler := congrArg Gist.handler alike.gist
  unfold endAssembly
  rw [handler]
  cases h.handler with
  | assembling a => exact alike_handle alike _
  | direct => exact alike

theorem alike_failed (app : Application σ) (alike : Alike fs gs h k) (e : Failure) :
    Alikes fs gs (h.failed app e) (k.failed app e) := by
  have noted := alike_note alike (n := .handed (.failed e)) rfl
  have called := alike_callIf app (alike_endAssembly noted (·.failed)) app.hooks.onError (.failed e)
  exact ⟨called.host, congrArg crash? called.answer⟩

theorem alike_closed (app : Application σ) (alike : Alike fs gs h k) (code : CloseCode) :
    Alikes fs gs (h.closed app code) (k.closed app code) := by
  have noted := alike_note alike (n := .handed (.closed code)) rfl
  have called := alike_callIf app (alike_endAssembly noted (·.ended)) app.hooks.onClosed
    (.closed code)
  exact ⟨called.host, congrArg crash? called.answer⟩

/-! ### The session of an assembler -/

theorem attached_giveBack (h : Host σ) : h.giveBack.attached = h.attached := by
  unfold giveBack
  split <;> rfl

theorem attached_answer (h : Host σ) (t : Ticket) (reply : Reply) :
    (h.answer t reply).1.attached = h.attached := by
  cases reply with
  | succeed | fail _ | drop | panic _ => exact attached_resolve h t _
  | hold => rfl

theorem attached_settleFrame (app : Application σ) (h : Host σ) (f : Frame) (t : Ticket)
    (verdict : Assembly.Verdict) : (h.settleFrame app f t verdict).1.attached = h.attached := by
  cases verdict with
  | ended | refused _ => exact attached_resolve h t _
  | taken => exact (attached_giveBack _).trans (attached_resolve h t _)
  | complete m =>
    dsimp only [settleFrame]
    split
    · exact (attached_answer _ _ _).trans (attached_callIf app h true (.message m))
    · exact attached_resolve h _ _
  | control =>
    have called := attached_callIf app h app.hooks.onControl (.control f)
    dsimp only [settleFrame]
    generalize h.callIf app app.hooks.onControl (.control f) = r at *
    obtain ⟨k, reply⟩ := r
    have resolved (o : Outcome) := (attached_resolve k t o).trans called
    cases reply with
    | panic p => exact resolved _
    | succeed | fail _ | drop | hold => exact (attached_giveBack _).trans (resolved _)

/-- Frames neither open the session nor take it away. -/
theorem attached_frame (app : Application σ) (h : Host σ) (f : Frame) (t : Ticket) :
    (h.frame app f t).1.attached = h.attached := by
  unfold frame
  dsimp only
  split
  · exact (attached_answer _ _ _).trans (attached_callIf app _ true (.frame f))
  · next a handler =>
    have logged (k : Host σ) (lines : List Log.Line) : (lines.foldl log k).attached = k.attached :=
      attached_of_gist (aloof_foldl_log k lines).gist
    refine (attached_settleFrame _ _ _ _ _).trans ((logged _ _).trans ?_)
    have handler : h.handler = .assembling a := handler
    have before : h.attached = a.attached := by rw [attached, handler]
    exact (Assembly.attached_step a _ _ f).trans before.symm

/-- An opening opens the session of an assembler, unless the application crashes. -/
theorem attached_opened (app : Application σ) (h : Host σ) {a : Assembly.Assembler}
    (handler : h.handler = .assembling a) (t : Ticket) (calm : (h.opened app t).2 = none) :
    (h.opened app t).1.attached = true := by
  have noted : (h.note (.handed .opened)).handler = .assembling a := handler
  unfold opened at calm ⊢
  dsimp only at calm ⊢
  rw [noted] at calm ⊢
  dsimp only at calm ⊢
  generalize (h.note (.handed .opened)).callIf app app.hooks.onOpen .opened = r at *
  obtain ⟨k, reply⟩ := r
  cases reply with
  | panic p => cases calm
  | succeed | fail _ | drop | hold => exact attached_resolve { k with handler := _ } t _

end Host

end WebSocketEngine
