import WebSocketEngine.Proofs.Host.Acting
import Mathlib.Logic.Relation

/-!
What everything that is done to a host is made of.

A stir is one small change.  All that the application, the handler and the driver do to a host is a
series of stirs (`Stirs`), with one exception: handing a frame over counts as activity and enters the
frame in the record, and only what follows is stirs (`stirs_frame`).  So what every stir preserves is
preserved by all of it.  Together with that exception, and with what the clock, the writer and the
sweepers do, they are the strokes, of which everything is made.
-/

namespace WebSocketEngine

variable {σ : Type}

/-- The frame of an entry that says that a frame went in or out. -/
def Note.passed? : Note → Option Frame
  | .handed (.frame f) | .accepted f _ => some f
  | .handed .opened | .handed (.message _) | .handed (.control _) | .handed (.failed _)
  | .handed (.closed _) | .called _ | .fetched _ _ | .settled _ _ | .served _ | .took
  | .logged _ => none

namespace Host

/-! ### Stirs -/

/-- One small change to a host. -/
inductive Stir (h : Host σ) : Host σ → Prop
  /-- Neither the clock nor the session nor the record has part in it. -/
  | aside {k : Host σ} (now : k.now = h.now) (session : k.session = h.session)
      (journal : k.journal = h.journal) : Stir h k
  /-- An entry in the record; no frame goes in or out. -/
  | note (n : Note) (quiet : n.passed? = none) : Stir h (h.note n)
  | configure (f : Config → Config) : Stir h (h.configure f)
  | demand (n : UInt64) : Stir h { h with session := { h.session with demand := n } }
  | abort (e : Failure) (first : h.session.abortReason = none) :
    Stir h { h with session := { h.session with abortReason := some e } }
  | accept (out : Outbound) (queue : List Outbound) (unsent : h.session.closeSent = false)
      (writer : h.session.outbox = some queue) : Stir h (h.accept out queue)
  | lose (f : Frame) (unsent : h.session.closeSent = false) (gone : h.session.outbox = none) :
    Stir h (h.lose f)

/-- One small change after the other. -/
abbrev Stirs : Host σ → Host σ → Prop := Relation.ReflTransGen Stir

variable {app : Application σ} {h k : Host σ}

theorem Stir.once (stir : Stir h k) : Stirs h k := Relation.ReflTransGen.single stir

theorem stirs_aside (now : k.now = h.now) (session : k.session = h.session)
    (journal : k.journal = h.journal) : Stirs h k := (Stir.aside now session journal).once

theorem stirs_note (h : Host σ) {n : Note} (quiet : n.passed? = none) : Stirs h (h.note n) :=
  (Stir.note n quiet).once

theorem stirs_count (h : Host σ) (m : Metric) : Stirs h (h.count m) := stirs_aside rfl rfl rfl

theorem stirs_foldl_log (h : Host σ) (lines : List Log.Line) : Stirs h (lines.foldl log h) := by
  induction lines generalizing h with
  | nil => exact .refl
  | cons l lines ih => exact (stirs_note h rfl).trans (ih _)

/-- One small change by whomever. -/
inductive Stroke (h : Host σ) : Host σ → Prop
  | stir {k : Host σ} (stir : Stir h k) : Stroke h k
  | clock (now : Instant) : Stroke h { h with now }
  | track (tracker : Idle.Tracker) : Stroke h { h with session := { h.session with tracker } }
  /-- The handler is given a frame. -/
  | hand (f : Frame) : Stroke h (h.note (.handed (.frame f)))
  /-- The writer takes over what is in the outbox. -/
  | empty (queue : List Outbound) (writer : h.session.outbox = some queue) :
    Stroke h { h with session := { h.session with outbox := some [] } }
  /-- The writer goes away. -/
  | hangUp : Stroke h { h with session := { h.session with outbox := none } }

/-- One change after the other, by whomever. -/
abbrev Strokes : Host σ → Host σ → Prop := Relation.ReflTransGen Stroke

theorem Stroke.once {h k : Host σ} (stroke : Stroke h k) : Strokes h k :=
  Relation.ReflTransGen.single stroke

theorem strokes_of_stirs {h k : Host σ} (stirs : Stirs h k) : Strokes h k :=
  Relation.ReflTransGen.mono (fun _ _ => Stroke.stir) h k stirs

/-! ### Work and its outcomes -/

theorem stirs_deliver (h : Host σ) (d : Option (Completion.Delivery Sink)) :
    Stirs h (h.deliver d) := by
  unfold deliver
  split
  · exact .refl
  · exact .refl
  · exact stirs_note h rfl
  · split
    · exact stirs_aside rfl rfl rfl
    · exact .refl

theorem stirs_resolve (h : Host σ) (t : Ticket) (o : Outcome) : Stirs h (h.resolve t o) := by
  have booked : Stirs h { h with ledger := (h.ledger.resolve t o).1 } := stirs_aside rfl rfl rfl
  exact booked.trans (stirs_deliver { h with ledger := _ } (h.ledger.resolve t o).2)

theorem stirs_of_sends {P : Frame → Prop} (sends : Sends P h k) : Stirs h k := by
  induction sends with
  | refl => exact .refl
  | book ledger _ ih => exact ih.trans (stirs_aside rfl rfl rfl)
  | settle caller o _ ih => exact ih.trans (stirs_note _ rfl)
  | accept _ unsent writer _ _ ih => exact ih.tail (.accept _ _ unsent writer)
  | lose _ unsent gone _ ih => exact ih.tail (.lose _ unsent gone)

theorem stirs_grant (h : Host σ) (n : UInt64) : Stirs h (h.grant n) :=
  (Stir.demand (h.session.demand + n)).once.trans (stirs_aside rfl rfl rfl)

theorem stirs_take {session : Session} (taken : h.session.take? = some session) :
    Stirs h { h with session } := by
  rw [(Session.eq_of_take? taken).2]
  exact (Stir.demand _).once

theorem stirs_giveBack (h : Host σ) : Stirs h h.giveBack := by
  unfold giveBack
  split
  · exact stirs_grant h 1
  · exact .refl

theorem stirs_abort (h : Host σ) (e : Failure) : Stirs h (h.abort e) := by
  rcases abort_cases h e with same | ⟨first, aborted⟩
  · rw [same]
  · rw [aborted]
    exact ((stirs_note h (n := .logged (abortedLine h.session.id e)) rfl).tail
      (Stir.abort e first)).trans (stirs_aside rfl rfl rfl)

/-! ### The application -/

theorem stirs_perform (h : Host σ) (a : Act) : Stirs h (h.perform a) := by
  cases a with
  | change x => exact (Stir.configure (·.apply x)).once
  | setIdleTimeout d => exact (Stir.configure (·.setIdleTimeout d)).once
  | demand n => exact stirs_grant h n
  | send f batch caller => exact stirs_of_sends (sends_perform_send h f batch caller)
  | sendMessage kind chunks batch caller =>
    exact stirs_of_sends (sends_perform_sendMessage h kind chunks batch caller)
  | abort e => exact stirs_abort h e
  | shutdown => exact stirs_aside rfl rfl rfl

theorem stirs_foldl_perform (h : Host σ) (acts : List Act) : Stirs h (acts.foldl perform h) := by
  induction acts generalizing h with
  | nil => exact .refl
  | cons a acts ih => exact (stirs_perform h a).trans (ih _)

theorem stirs_call (app : Application σ) (h : Host σ) (c : Call) : Stirs h (h.call app c).1 := by
  have recalled : Stirs h { h with memory := (app.react h.memory c).1 } := stirs_aside rfl rfl rfl
  exact (recalled.trans (stirs_note _ rfl)).trans (stirs_foldl_perform _ _)

theorem stirs_callIf (app : Application σ) (h : Host σ) (installed : Bool) (c : Call) :
    Stirs h (h.callIf app installed c).1 := by
  cases installed with
  | false => exact .refl
  | true => exact stirs_call app h c

theorem stirs_answer (h : Host σ) (t : Ticket) (reply : Reply) : Stirs h (h.answer t reply).1 := by
  cases reply with
  | hold => exact stirs_aside rfl rfl rfl
  | succeed | fail _ | drop | panic _ => exact stirs_resolve h t _

/-! ### Events at the handler -/

theorem stirs_endAssembly (h : Host σ) (f : Assembly.Assembler → Assembly.Assembler) :
    Stirs h (h.endAssembly f) := by
  unfold endAssembly
  split
  · exact stirs_aside rfl rfl rfl
  · exact .refl

theorem stirs_opened (app : Application σ) (h : Host σ) (t : Ticket) :
    Stirs h (h.opened app t).1 := by
  have handed : Stirs h (h.note (.handed .opened)) := stirs_note h rfl
  unfold opened
  dsimp only
  split
  · exact (handed.trans (stirs_call app _ _)).trans (stirs_answer _ _ _)
  · next a _ =>
    have called := handed.trans (stirs_callIf app (h.note (.handed .opened)) app.hooks.onOpen .opened)
    split
    · next eq =>
      rw [eq] at called
      exact called.trans (stirs_resolve _ _ _)
    · next k _ _ eq =>
      rw [eq] at called
      have opened : Stirs k { k with handler := .assembling a.opened } := stirs_aside rfl rfl rfl
      exact (called.trans opened).trans (stirs_resolve _ t (.ok ()))

theorem stirs_settleFrame (app : Application σ) (h : Host σ) (f : Frame) (t : Ticket)
    (v : Assembly.Verdict) : Stirs h (h.settleFrame app f t v).1 := by
  cases v with
  | ended | refused _ => exact stirs_resolve h t _
  | taken => exact (stirs_resolve h t _).trans (stirs_giveBack _)
  | complete m =>
    simp only [settleFrame]
    split
    · exact (stirs_call app h _).trans (stirs_answer _ _ _)
    · exact stirs_resolve h _ _
  | control =>
    have called := stirs_callIf app h app.hooks.onControl (.control f)
    simp only [settleFrame]
    split
    · next eq =>
      rw [eq] at called
      exact called.trans (stirs_resolve _ _ _)
    · next eq =>
      rw [eq] at called
      exact (called.trans (stirs_resolve _ _ _)).trans (stirs_giveBack _)

/-- What follows once a frame has been entered in the record. -/
theorem stirs_frame (app : Application σ) (h : Host σ) (f : Frame) (t : Ticket) :
    Stirs (h.note (.handed (.frame f))) (h.frame app f t).1 := by
  unfold frame
  dsimp only
  split
  · exact (stirs_call app _ _).trans (stirs_answer _ _ _)
  · next a _ =>
    have stepped : Stirs (h.note (.handed (.frame f))) { h.note (.handed (.frame f)) with
        handler := .assembling (a.step app.hooks h.session.config f).1 } := stirs_aside rfl rfl rfl
    exact (stepped.trans (stirs_foldl_log _ _)).trans (stirs_settleFrame app _ f t _)

/-- A frame, with what is entered in the record. -/
theorem strokes_frame (app : Application σ) (h : Host σ) (f : Frame) (t : Ticket) :
    Strokes h (h.frame app f t).1 :=
  (Stroke.hand f).once.trans (strokes_of_stirs (stirs_frame app h f t))

theorem stirs_failed (app : Application σ) (h : Host σ) (e : Failure) :
    Stirs h (h.failed app e).1 :=
  ((stirs_note h (n := .handed (.failed e)) rfl).trans (stirs_endAssembly _ (·.failed))).trans
    (stirs_callIf app _ app.hooks.onError (.failed e))

theorem stirs_closed (app : Application σ) (h : Host σ) (code : CloseCode) :
    Stirs h (h.closed app code).1 :=
  ((stirs_note h (n := .handed (.closed code)) rfl).trans (stirs_endAssembly _ (·.ended))).trans
    (stirs_callIf app _ app.hooks.onClosed (.closed code))

end Host

end WebSocketEngine
