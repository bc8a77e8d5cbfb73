import WebSocketEngine.Proofs.Host.Granting
import WebSocketEngine.Proofs.Session.Calls
import Mathlib.Logic.Relation

/-!
What an application and its handler do to a host, by name.

    memory, handler, kept tokens      replaced or added to
    configuration, demand             changed, granted
    abort, shutdown                   asked for
    frames and tokens                 offered, resolved
    record                            an entry, but of no frame in or out and no unit taken

All that happens at the handler is a series of such pieces of work (`works_opened`, `works_frame`,
`works_failed`, `works_closed`), so what each of them leaves alone is left alone by all of it.  That
is what was asked for and the record of the frames handed over and of the units taken for them
(`Bears`), and a driver that is ready (`Firm`).
-/

namespace WebSocketEngine

variable {σ : Type}

/-- What an entry says of frames handed over, and of the units that the driver takes before them. -/
def Note.toll? : Note → Option (Option Frame)
  | .took => some none
  | .handed (.frame f) => some (some f)
  | .handed .opened | .handed (.message _) | .handed (.control _) | .handed (.failed _)
  | .handed (.closed _) | .called _ | .accepted _ _ | .fetched _ _ | .settled _ _ | .served _
  | .logged _ => none

namespace Host

/-! ### Pieces of work -/

/-- One piece of work. -/
inductive Work (h : Host σ) : Host σ → Prop
  | remember (memory : σ) : Work h { h with memory }
  | handle (handler : Handler) : Work h { h with handler }
  | keep (t : Ticket) : Work h { h with held := h.held ++ [t] }
  | note (n : Note) (free : n.toll? = none) (unsent : n.sent? = none) (ungot : n.got? = none) :
    Work h (h.note n)
  | configure (f : Config → Config) : Work h (h.configure f)
  | grant (n : UInt64) : Work h (h.grant n)
  | abort (e : Failure) : Work h (h.abort e)
  | stop : Work h h.stop
  | resolve (t : Ticket) (o : Outcome) : Work h (h.resolve t o)
  | sends {P : Frame → Prop} {k : Host σ} (sends : Sends P h k) : Work h k

/-- One piece of work after the other. -/
abbrev Works : Host σ → Host σ → Prop := Relation.ReflTransGen Work

variable {app : Application σ} {h k l : Host σ}

theorem Work.once (work : Work h k) : Works h k := Relation.ReflTransGen.single work

theorem works_note (h : Host σ) {n : Note} (free : n.toll? = none) (unsent : n.sent? = none)
    (ungot : n.got? = none) : Works h (h.note n) := (Work.note n free unsent ungot).once

theorem works_resolve (h : Host σ) (t : Ticket) (o : Outcome) : Works h (h.resolve t o) :=
  (Work.resolve t o).once

theorem works_giveBack (h : Host σ) : Works h h.giveBack := by
  unfold giveBack
  split
  · exact (Work.grant 1).once
  · exact .refl

theorem works_foldl_log (h : Host σ) (lines : List Log.Line) : Works h (lines.foldl log h) := by
  induction lines generalizing h with
  | nil => exact .refl
  | cons l lines ih => exact (works_note h rfl rfl rfl).trans (ih _)

/-! ### The application -/

theorem works_perform (h : Host σ) (a : Act) : Works h (h.perform a) := by
  cases a with
  | change x => exact (Work.configure (·.apply x)).once
  | setIdleTimeout d => exact (Work.configure (·.setIdleTimeout d)).once
  | demand n => exact (Work.grant n).once
  | send f batch caller => exact (Work.sends (sends_perform_send h f batch caller)).once
  | sendMessage kind chunks batch caller =>
    exact (Work.sends (sends_perform_sendMessage h kind chunks batch caller)).once
  | abort e => exact (Work.abort e).once
  | shutdown => exact Work.stop.once

theorem works_foldl_perform (h : Host σ) (acts : List Act) : Works h (acts.foldl perform h) := by
  induction acts generalizing h with
  | nil => exact .refl
  | cons a acts ih => exact (works_perform h a).trans (ih _)

theorem works_call (app : Application σ) (h : Host σ) (c : Call) : Works h (h.call app c).1 := by
  have remembered : Works h { h with memory := (app.react h.memory c).1 } := (Work.remember _).once
  exact (remembered.trans (works_note _ rfl rfl rfl)).trans (works_foldl_perform _ _)

theorem works_callIf (app : Application σ) (h : Host σ) (installed : Bool) (c : Call) :
    Works h (h.callIf app installed c).1 := by
  cases installed with
  | false => exact .refl
  | true => exact works_call app h c

theorem works_answer (h : Host σ) (t : Ticket) (reply : Reply) : Works h (h.answer t reply).1 := by
  cases reply with
  | hold => exact (Work.keep t).once
  | succeed | fail _ | drop | panic _ => exact works_resolve h t _

/-! ### Events at the handler -/

theorem works_endAssembly (h : Host σ) (f : Assembly.Assembler → Assembly.Assembler) :
    Works h (h.endAssembly f) := by
  unfold endAssembly
  split
  · exact (Work.handle _).once
  · exact .refl

theorem works_opened (app : Application σ) (h : Host σ) (t : Ticket) :
    Works h (h.opened app t).1 := by
  have handed : Works h (h.note (.handed .opened)) := works_note h rfl rfl rfl
  unfold opened
  dsimp only
  split
  · exact (handed.trans (works_call app _ _)).trans (works_answer _ _ _)
  · next a _ =>
    have called := handed.trans
      (works_callIf app (h.note (.handed .opened)) app.hooks.onOpen .opened)
    split
    · next eq =>
      rw [eq] at called
      exact called.trans (works_resolve _ _ _)
    · next k _ _ eq =>
      rw [eq] at called
      have opened : Works k { k with handler := .assembling a.opened } := (Work.handle _).once
      exact (called.trans opened).trans (works_resolve _ t (.ok ()))

theorem works_settleFrame (app : Application σ) (h : Host σ) (f : Frame) (t : Ticket)
    (v : Assembly.Verdict) : Works h (h.settleFrame app f t v).1 := by
  cases v with
  | ended | refused _ => exact works_resolve h t _
  | taken => exact (works_resolve h t _).trans (works_giveBack _)
  | complete m =>
    simp only [settleFrame]
    split
    · exact (works_call app h _).trans (works_answer _ _ _)
    · exact works_resolve h _ _
  | control =>
    have called := works_callIf app h app.hooks.onControl (.control f)
    simp only [settleFrame]
    split
    · next eq =>
      rw [eq] at called
      exact called.trans (works_resolve _ _ _)
    · next eq =>
      rw [eq] at called
      exact (called.trans (works_resolve _ _ _)).trans (works_giveBack _)

/-- What follows once a frame has been entered in the record. -/
theorem works_frame (app : Application σ) (h : Host σ) (f : Frame) (t : Ticket) :
    Works (h.note (.handed (.frame f))) (h.frame app f t).1 := by
  unfold frame
  dsimp only
  split
  · exact (works_call app _ _).trans (works_answer _ _ _)
  · next a _ =>
    have stepped : Works (h.note (.handed (.frame f))) { h.note (.handed (.frame f)) with
        handler := .assembling (a.step app.hooks h.session.config f).1 } := (Work.handle _).once
    exact (stepped.trans (works_foldl_log _ _)).trans (works_settleFrame app _ f t _)

theorem works_failed (app : Application σ) (h : Host σ) (e : Failure) :
    Works h (h.failed app e).1 :=
  have handed : Works h (h.note (.handed (.failed e))) := works_note h rfl rfl rfl
  (handed.trans (works_endAssembly _ (·.failed))).trans
    (works_callIf app _ app.hooks.onError (.failed e))

theorem works_closed (app : Application σ) (h : Host σ) (code : CloseCode) :
    Works h (h.closed app code).1 :=
  have handed : Works h (h.note (.handed (.closed code))) := works_note h rfl rfl rfl
  (handed.trans (works_endAssembly _ (·.ended))).trans
    (works_callIf app _ app.hooks.onClosed (.closed code))

/-! ### What stays -/

/-- The frames that were handed over, and in between the units that the driver took. -/
abbrev tolls (h : Host σ) : List (Option Frame) := h.record Note.toll?

/-- The first reason to abort stays, and so does a shutdown; the tolls since then are `ts`. -/
structure Bears (ts : List (Option Frame)) (h k : Host σ) : Prop where
  reason : ∀ e, h.session.abortReason = some e → k.session.abortReason = some e
  stopping : h.shutdown = true → k.shutdown = true
  tolls : k.tolls = h.tolls ++ ts

/-- A driver that is ready stays ready, too. -/
structure Firm (ts : List (Option Frame)) (h k : Host σ) : Prop extends Bears ts h k where
  awake : .driver ∈ h.ready → .driver ∈ k.ready

variable {ts us : List (Option Frame)}

theorem Bears.trans (first : Bears ts h k) (second : Bears us k l) : Bears (ts ++ us) h l where
  reason e given := second.reason e (first.reason e given)
  stopping asked := second.stopping (first.stopping asked)
  tolls := by rw [second.tolls, first.tolls, List.append_assoc]

theorem Firm.trans (first : Firm ts h k) (second : Firm us k l) : Firm (ts ++ us) h l where
  toBears := first.toBears.trans second.toBears
  awake ready := second.awake (first.awake ready)

/-- Nothing is paid afterwards. -/
theorem Firm.free (first : Firm ts h k) (second : Firm [] k l) : Firm ts h l := by
  have both := first.trans second
  rwa [List.append_nil] at both

theorem firm_of_eq (reason : k.session.abortReason = h.session.abortReason)
    (stopping : k.shutdown = h.shutdown) (awake : .driver ∈ h.ready → .driver ∈ k.ready)
    (journal : k.journal = h.journal) : Firm [] h k where
  reason _ given := reason.trans given
  stopping asked := stopping.trans asked
  awake := awake
  tolls := (record_of_journal journal _).trans (List.append_nil _).symm

theorem firm_refl (h : Host σ) : Firm [] h h := firm_of_eq rfl rfl id rfl

theorem firm_note (h : Host σ) (n : Note) : Firm n.toll?.toList h (h.note n) where
  reason _ given := given
  stopping asked := asked
  awake ready := ready
  tolls := record_note _ h n

theorem firm_of_sends {P : Frame → Prop} (sends : Sends P h k) : Firm [] h k where
  reason _ given := (congrArg (·.session.abortReason) sends.still :).trans given
  stopping asked := (congrArg (·.shutdown) sends.still :).trans asked
  awake ready := (congrArg (·.ready) sends.still :).symm ▸ ready
  tolls := (sends.record (fun _ _ => rfl) fun _ _ => rfl).trans (List.append_nil _).symm

theorem firm_deliver (h : Host σ) (d : Option (Completion.Delivery Sink)) :
    Firm [] h (h.deliver d) := by
  unfold deliver
  split
  · exact firm_refl h
  · exact firm_refl h
  · next n o => exact firm_note h (.settled n o)
  · split
    · exact firm_of_eq rfl rfl (fun _ => mem_enqueue.mpr (.inr rfl)) rfl
    · exact firm_refl h

theorem firm_resolve (h : Host σ) (t : Ticket) (o : Outcome) : Firm [] h (h.resolve t o) := by
  have booked : Firm [] h { h with ledger := (h.ledger.resolve t o).1 } := firm_of_eq rfl rfl id rfl
  exact booked.trans (firm_deliver { h with ledger := _ } _)

/-- A second reason to abort changes nothing. -/
theorem firm_abort (h : Host σ) (e : Failure) : Firm [] h (h.abort e) := by
  rcases abort_cases h e with same | ⟨first, aborted⟩
  · rw [same]
    exact firm_refl h
  · rw [aborted]
    refine ⟨⟨fun e given => ?_, fun asked => asked,
      (firm_note h (.logged (abortedLine h.session.id e))).tolls⟩,
      fun _ => mem_enqueue.mpr (.inr rfl)⟩
    rw [first] at given
    cases given

theorem firm_of_work (work : Work h k) : Firm [] h k := by
  cases work with
  | remember | handle | keep | configure => exact firm_of_eq rfl rfl id rfl
  | note n free _ _ =>
    have noted := firm_note h n
    rwa [free] at noted
  | grant n => exact firm_of_eq rfl rfl (fun ready => mem_foldl_enqueue.mpr (.inl ready)) rfl
  | abort e => exact firm_abort h e
  | stop =>
    exact ⟨⟨fun _ given => given, fun _ => rfl, (List.append_nil _).symm⟩,
      fun _ => mem_enqueue.mpr (.inr rfl)⟩
  | resolve t o => exact firm_resolve h t o
  | sends sends => exact firm_of_sends sends

theorem firm_of_works (works : Works h k) : Firm [] h k := by
  induction works with
  | refl => exact firm_refl h
  | tail _ work ih => exact ih.trans (firm_of_work work)

end Host

end WebSocketEngine
