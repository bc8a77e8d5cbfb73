import WebSocketEngine.Proofs.Connection.Counting
import WebSocketEngine.Proofs.Connection.Refusals
import WebSocketEngine.Proofs.Frame.Reason
import Mathlib.Algebra.Order.Group.Multiset

/-!
The CLOSE frames that the driver sends, and what is in them.

    a CLOSE came in      the code that is read from it, and no reason
    a shutdown           that the server goes away
    a failure            the code for it, and as much of its message as there is room for

A CLOSE that a step adds to the accepted frames is the application's if the application has offered
it in that step before it was told of the end.  All others are the driver's (`closings`).  Which of the
three such a frame is can be told from the failures that the handler was told of (`parted_of_way`).
-/

namespace WebSocketEngine

variable {σ : Type}

/-! ### The application's own -/

namespace Application

/-- The application as it is until it is told of the end; then it does nothing any more. -/
def untilClosed (app : Application σ) : Application σ :=
  { app with
    react := fun memory c => match c with
      | .closed _ => ((app.react memory c).1, ⟨[], (app.react memory c).2.reply⟩)
      | .opened | .message _ | .control _ | .frame _ | .failed _ => app.react memory c }

theorem recollect_untilClosed (app : Application σ) (memory : σ) (calls : List Call) :
    app.untilClosed.recollect memory calls = app.recollect memory calls := by
  induction calls generalizing memory with
  | nil => rfl
  | cons c calls ih => cases c <;> exact ih _

end Application

namespace Host

variable {app : Application σ} {h k l : Host σ} {fs gs : List Frame} {es es' : List Call}

/-- The CLOSE frames that were accepted in between, but for those that the application has offered
    before it was told of the end. -/
def closings (app : Application σ) (h k : Host σ) : List Frame :=
  (k.closes.drop h.closes.length).diff
    (app.untilClosed.offers h.memory (k.calls.drop h.calls.length))

/-- The failures that the handler was told of in between. -/
def told (h k : Host σ) : List Failure :=
  (k.events.drop h.events.length).filterMap Call.failure?

/-- Besides the application's CLOSE frames only some of `fs` were accepted, and the handler was given
    the events `es`. -/
structure Parts (app : Application σ) (fs : List Frame) (es : List Call) (h k : Host σ) :
    Prop where
  events : k.events = h.events ++ es
  called : ∃ calls, k.calls = h.calls ++ calls ∧ k.memory = app.recollect h.memory calls ∧
    ∃ taken : List Frame, k.closes = h.closes ++ taken ∧
      (taken : Multiset Frame) ≤ app.untilClosed.offers h.memory calls + fs

theorem Parts.trans (first : Parts app fs es h k) (second : Parts app gs es' k l) :
    Parts app (fs ++ gs) (es ++ es') h l where
  events := by rw [second.events, first.events, List.append_assoc]
  called := by
    obtain ⟨cs, called, memory, taken, closes, among⟩ := first.called
    obtain ⟨ds, called', memory', taken', closes', among'⟩ := second.called
    refine ⟨cs ++ ds, by rw [called', called, List.append_assoc], ?_, taken ++ taken',
      by rw [closes', closes, List.append_assoc], ?_⟩
    · rw [memory', memory, app.recollect_append]
    · rw [Application.offers_append, app.recollect_untilClosed, ← memory, ← Multiset.coe_add,
        ← Multiset.coe_add, ← Multiset.coe_add, add_add_add_comm]
      exact add_le_add among among'

/-- Nothing of all this has happened. -/
theorem Parts.quietly (first : Parts app fs es h k) (second : Parts app [] [] k l) :
    Parts app fs es h l := by
  have both := first.trans second
  rwa [List.append_nil, List.append_nil] at both

theorem parts_of_account (same : k.account = h.account) : Parts app fs [] h k where
  events := (congrArg Account.events same).trans (List.append_nil _).symm
  called := ⟨[], (congrArg Account.calls same).trans (List.append_nil _).symm,
    congrArg Account.memory same, [], (congrArg Account.closes same).trans (List.append_nil _).symm,
    Multiset.zero_le _⟩

/-- What the application is attended to with is all its own. -/
theorem parts_of_attends (attends : Attends .close app.untilClosed h k)
    (events : k.events = h.events ++ es) : Parts app [] es h k where
  events := events
  called := by
    obtain ⟨calls, called, memory, offers⟩ := attends.called
    obtain ⟨taken, accepted, among⟩ := offers.accepted
    refine ⟨calls, called, memory.trans (app.recollect_untilClosed _ _),
      taken.filter (·.op = .close), ?_, ?_⟩
    · rw [Host.closes, accepted]
      exact List.filter_append ..
    · rw [Multiset.coe_nil, add_zero]
      exact (among.trans List.filter_sublist).subperm

theorem mem_of_closings (parts : Parts app fs es h k) {f : Frame} (mem : f ∈ closings app h k) :
    f ∈ fs ∧ told h k = es.filterMap Call.failure? := by
  obtain ⟨calls, called, -, taken, closes, among⟩ := parts.called
  rw [closings, closes, called, List.drop_left, List.drop_left] at mem
  refine ⟨?_, by rw [told, parts.events, List.drop_left]⟩
  have le : (taken : Multiset Frame) - app.untilClosed.offers h.memory calls ≤ fs :=
    tsub_le_iff_left.mpr among
  rw [Multiset.coe_sub] at le
  exact Multiset.mem_of_le le mem

/-! ### After a CLOSE -/

/-- Once a CLOSE was sent, nothing is accepted any more. -/
theorem accepted_of_stirs (stirs : Stirs h k) (sent : h.session.closeSent = true) :
    k.accepted = h.accepted ∧ k.session.closeSent = true := by
  induction stirs with
  | refl => exact ⟨rfl, sent⟩
  | tail _ stir ih =>
    obtain ⟨same, still⟩ := ih
    cases stir with
    | aside now session journal =>
      exact ⟨(record_of_journal journal _).trans same, by rw [session, still]⟩
    | note n quiet =>
      refine ⟨?_, still⟩
      rw [accepted, record_note, frame?_of_passed? quiet]
      exact (List.append_nil _).trans same
    | configure | demand | abort => exact ⟨same, still⟩
    | accept _ _ unsent _ | lose _ unsent _ => cases still.symm.trans unsent

theorem parts_closed (app : Application σ) (h : Host σ) (sent : h.session.closeSent = true)
    (code : CloseCode) : Parts app [] [.closed code] h (h.closed app code).1 where
  events := congrArg Docket.events (docket_closed h code)
  called := by
    have attends : Attends .close app h (h.closed app code).1 := attends_closed h code
    obtain ⟨calls, called, memory, -⟩ := attends.called
    obtain ⟨same, -⟩ := accepted_of_stirs (stirs_closed app h code) sent
    exact ⟨calls, called, memory, [], by rw [Host.closes, same, List.append_nil],
      Multiset.zero_le _⟩

end Host

namespace Connection

open Host (Parts)

variable {app : Application σ} {c d : Connection σ} {fs : List Frame} {es : List Call}

/-! ### What the driver sends -/

/-- After the driver has sent its CLOSE one was sent, whoever it was. -/
theorem closeSent_sendClose (h : Host σ) (code : CloseCode) (reason : String) :
    (sendClose h code reason).session.closeSent = true := by
  unfold sendClose
  split
  · next sent => exact sent
  · next unsent =>
    have unsent : h.session.closeSent = false := Bool.eq_false_iff.mpr unsent
    have closing : decide ((Frame.close code reason).op = .close) = true :=
      decide_eq_true (op_close code reason)
    cases writer : h.session.outbox with
    | none =>
      rw [Host.close, Host.send_of_gone h unsent writer, Host.session_resolve]
      exact closing
    | some queue =>
      rw [Host.close, Host.send_of_open h unsent writer]
      exact closing

/-- Of the frames that the driver sends only a CLOSE counts. -/
theorem parts_send (app : Application σ) (h : Host σ) (f : Frame) :
    Parts app ([f].filter (·.op = .close)) [] h (h.send f (.root .silent) false) := by
  have silent : (Completion.Token.root Sink.silent).sink.Outside := trivial
  have sends : Host.Sends (fun _ => True) h (h.send f (.root .silent) false) :=
    Host.sends_send h trivial silent false
  have offers : Host.Offers .close [f] h (h.send f (.root .silent) false) :=
    Host.offers_send h f silent false
  obtain ⟨taken, accepted, among⟩ := offers.accepted
  refine ⟨sends.events.trans (List.append_nil _).symm, [],
    sends.calls.trans (List.append_nil _).symm, (congrArg Host.memory sends.still :),
    taken.filter (·.op = .close), ?_, among.subperm⟩
  rw [Host.closes, accepted]
  exact List.filter_append ..

theorem parts_sendClose (app : Application σ) (h : Host σ) (code : CloseCode) (reason : String) :
    Parts app [.close code reason] [] h (sendClose h code reason) := by
  have closing : [Frame.close code reason].filter (·.op = .close) = [.close code reason] := by
    simp [op_close]
  unfold sendClose
  split
  · exact Host.parts_of_account rfl
  · rw [← closing]
    exact parts_send app h _

theorem parts_sendPong (app : Application σ) (h : Host σ) (f : Frame) :
    Parts app [] [] h (sendPong h f) := by
  unfold sendPong
  split
  · exact parts_send app h (.pong f.payload)
  · exact Host.parts_of_account rfl

/-- A CLOSE frame of the driver, by the failures that the handler was told of before it. -/
inductive Parting : List Failure → Frame → Prop
  | echo {f : Frame} {code : CloseCode} (read : f.closeCode = some code) :
    Parting [] (.close code "")
  | shutdown : Parting [] (.close .goingAway shutdownReason)
  | failure (e : Failure) : Parting [e] (.close e.closeCode (CloseReason.ofFailure e))

/-- Whatever the driver has sent between two hosts was such a frame. -/
def Parted (app : Application σ) (h k : Host σ) : Prop :=
  ∃ fs es, Parts app fs es h k ∧ ∀ f ∈ fs, Parting (es.filterMap Call.failure?) f

theorem parted_of_parts {h k : Host σ} (parts : Parts app [] es h k) : Parted app h k :=
  ⟨[], es, parts, nofun⟩

theorem parts_leave (app : Application σ) (c : Connection σ) (ending : Ending) :
    Parts app [] [] c.host (c.leave ending).host :=
  Host.parts_of_account (account_leave c ending)

theorem parted_unlessCrashed {h : Host σ} {r : Host σ × Option Panic}
    (begun : Parts app fs es h r.1) (fine : ∀ f ∈ fs, Parting (es.filterMap Call.failure?) f)
    {next : Connection σ → Connection σ}
    (onward : Parted app h (next { c with host := r.1 }).host) :
    Parted app h (c.unlessCrashed r next).host := by
  unfold unlessCrashed
  dsimp only
  split
  · next p _ =>
    have crashed : Parts app [] [] r.1 ({ c with host := r.1 }.crash p).host :=
      Host.parts_of_account (account_crash { c with host := r.1 } p)
    exact ⟨fs, es, begun.quietly crashed, fine⟩
  · exact onward

/-! ### Moves of the driver -/

/-- A CLOSE was sent, and the driver comes to its end. -/
theorem parted_finish {h : Host σ} (begun : Parts app fs [] h c.host)
    (sent : c.host.session.closeSent = true) (code : CloseCode) (fine : ∀ f ∈ fs, Parting [] f) :
    Parted app h (c.finish app code).host := by
  have logged : Parts app [] [] c.host (c.host.log (closedLine c.id code)) :=
    Host.parts_of_account (Host.account_log _ _)
  have closed := (begun.quietly logged).trans (Host.parts_closed app (c.host.log _) sent code)
  rw [List.append_nil] at closed
  unfold finish
  exact parted_unlessCrashed closed fine
    ⟨fs, _, closed.quietly (parts_leave app { c with host := _ } (.closed code)), fine⟩

theorem parted_fail (app : Application σ) (c : Connection σ) (e : Failure) :
    Parted app c.host (c.fail app e).host := by
  let counted := (c.host.log (failedLine c.id e)).count (.failed e.label)
  have logged : Parts app [] [] c.host counted :=
    Host.parts_of_account (Host.account_log c.host (failedLine c.id e))
  -- What the application does when it is told of the failure is its own.
  have attends : Host.Attends .close app.untilClosed counted (counted.failed app e).1 :=
    Host.attends_failed counted e
  have failed : Parts app [] [.failed e] c.host (counted.failed app e).1 :=
    logged.trans (Host.parts_of_attends attends
      (congrArg Host.Docket.events (Host.docket_failed counted e)))
  let k := sendClose (counted.failed app e).1 e.closeCode (CloseReason.ofFailure e)
  have closing : Parts app [.close e.closeCode (CloseReason.ofFailure e)] [.failed e] c.host k :=
    failed.trans (parts_sendClose app _ _ _)
  have closed := closing.trans
    (Host.parts_closed app k (closeSent_sendClose _ _ _) e.closeCode)
  rw [List.append_nil] at closed
  have fine : ∀ f ∈ [Frame.close e.closeCode (CloseReason.ofFailure e)], Parting [e] f := by
    intro f mem
    rw [List.mem_singleton.mp mem]
    exact .failure e
  unfold fail
  refine parted_unlessCrashed failed nofun ?_
  exact parted_unlessCrashed (c := { c with host := _ }) closed fine
    ⟨_, _, closed.quietly (parts_leave app { c with host := _ } (.failed e)), fine⟩

theorem parted_finishShutdown (app : Application σ) (c : Connection σ) :
    Parted app c.host (c.finishShutdown app).host := by
  have closing := parts_sendClose app c.host .goingAway shutdownReason
  refine parted_finish (c := { c with host := _ }) closing (closeSent_sendClose _ _ _) _ ?_
  intro f mem
  rw [List.mem_singleton.mp mem]
  exact .shutdown

theorem parted_enter (app : Application σ) (c : Connection σ) :
    Parted app c.host (c.enter app).host := by
  have attends : Host.Attends .close app.untilClosed c.entering.1
      (c.entering.1.opened app c.entering.2).1 := Host.attends_opened c.entering.1 c.entering.2
  have begun : Parts app [] [] c.host c.entering.1 := Host.parts_of_account (account_entering c)
  have opened := begun.trans
    (Host.parts_of_attends attends (Host.heard_opened app c.entering.1 rfl).events)
  rw [enter_eq]
  exact parted_unlessCrashed opened nofun (parted_of_parts opened)

theorem parted_dispatch (app : Application σ) (c : Connection σ) (f : Frame) :
    Parted app c.host (c.dispatch app f).host := by
  have attends : Host.Attends .close app.untilClosed c.facing.1
      (c.facing.1.frame app f c.facing.2).1 := Host.attends_frame c.facing.1 f c.facing.2
  have begun : Parts app [] [] c.host c.facing.1 := Host.parts_of_account (account_facing c)
  have handed := begun.trans
    (Host.parts_of_attends attends (Host.heard_frame app c.facing.1 f rfl).events)
  rw [dispatch_eq]
  exact parted_unlessCrashed handed nofun (parted_of_parts handed)

theorem parted_conclude (app : Application σ) (c : Connection σ) (f : Frame) :
    Parted app c.host (c.conclude app f).host := by
  have answered := parts_sendPong app c.host f
  unfold conclude
  split
  · next code read =>
    have closing := answered.trans (parts_sendClose app _ code "")
    refine parted_finish (c := { c with host := _ }) closing (closeSent_sendClose _ _ _) _ ?_
    intro g mem
    rw [List.mem_singleton.mp mem]
    exact .echo read
  · exact parted_of_parts answered

theorem parted_of_way (way : Way app c d) : Parted app c.host d.host := by
  have nothing : Parted app c.host c.host := parted_of_parts (Host.parts_of_account rfl)
  cases way with
  | enters starting => exact parted_enter app c
  | opens opening verdict => exact nothing
  | concludes serving verdict => exact parted_conclude app { c with patience := c.patience - 1 } _
  | fails awaits outcome => exact parted_fail app c _
  | stops reading stopping => exact parted_finishShutdown app c
  | aborts reading going reason => exact parted_fail app c _
  | takes reading free taken =>
    refine parted_of_parts (Host.parts_of_account ?_)
    exact (Host.account_note _ rfl rfl rfl).trans (Host.account_take c.host taken)
  | @hands f rest reading free arrived => exact parted_dispatch app { c with inbound := rest } f
  | runsOut reading free empty ended => exact parted_fail app c _

/-! ### Whole runs -/

theorem parted_step (stepped : c.step app = some d) : Parted app c.host d.host := by
  have aside (same : d.host.account = c.host.account) : Parted app c.host d.host :=
    parted_of_parts (Host.parts_of_account same)
  cases pace_of_step stepped with
  | serves queue => exact aside (account_serve _ _)
  | yields queue tired => exact aside rfl
  | turns awake way => exact parted_of_way way
  | rests queue lacks => exact aside (account_rest c _)

/-- A CLOSE frame of the driver, with the failures that the handler was told of in the same step. -/
structure Closing where
  frame : Frame
  failures : List Failure
  deriving DecidableEq

/-- The CLOSE frames that the driver sends in a beat.  It moves in steps alone, and every schedule is
    one of beats in which these stand by themselves (`exists_instant_beats`). -/
def closingsAt (app : Application σ) (c : Connection σ) : Beat → List Closing
  | .step =>
    let h := (c.beat app .step).host
    (Host.closings app c.host h).map (⟨·, Host.told c.host h⟩)
  | .act _ | .fetch | .clock _ _ => []

/-- The CLOSE frames that the driver sends in a run. -/
def closings (app : Application σ) : Connection σ → List Beat → List Closing
  | _, [] => []
  | c, b :: bs => closingsAt app c b ++ closings app (c.beat app b) bs

theorem parting_of_closingsAt {b : Beat} {x : Closing} (mem : x ∈ closingsAt app c b) :
    Parting x.failures x.frame := by
  cases b with
  | act | fetch | clock => cases mem
  | step =>
    obtain ⟨f, sent, rfl⟩ := List.mem_map.mp mem
    have parted : Parted app c.host (c.beat app .step).host := by
      rw [beat]
      cases stepped : c.step app with
      | none => exact parted_of_parts (Host.parts_of_account rfl)
      | some d => exact parted_step stepped
    obtain ⟨fs, es, parts, fine⟩ := parted
    obtain ⟨among, told⟩ := Host.mem_of_closings parts sent
    dsimp only
    rw [told]
    exact fine f among

theorem parting_of_closings {bs : List Beat} {x : Closing} (mem : x ∈ closings app c bs) :
    Parting x.failures x.frame := by
  induction bs generalizing c with
  | nil => cases mem
  | cons b bs ih =>
    rcases List.mem_append.mp mem with now | later
    · exact parting_of_closingsAt now
    · exact ih later

theorem proper_closeCode (e : Failure) : e.closeCode.Proper := by
  cases e <;> rfl

theorem wellMade_of_parting {es : List Failure} {f : Frame} (parting : Parting es f) :
    f.WellMade := by
  cases parting with
  | echo read => exact Frame.wellMade_close (Frame.proper_of_closeCode read) (Nat.zero_le _)
  | shutdown =>
    have proper : CloseCode.goingAway.Proper := rfl
    exact Frame.wellMade_close proper (by decide)
  | failure e =>
    exact Frame.wellMade_close (proper_closeCode e) (CloseReason.shortened_ofFailure e).fits

theorem reason_of_parting {es : List Failure} {f : Frame} (parting : Parting es f) {e : Failure}
    (told : e ∈ es) :
    ∃ reason, f = .close e.closeCode reason ∧ CloseReason.Shortened 123 e.message reason := by
  cases parting with
  | echo | shutdown => cases told
  | failure e' =>
    obtain rfl := List.mem_singleton.mp told
    exact ⟨_, rfl, CloseReason.shortened_ofFailure e⟩

/-- In every run each CLOSE frame of the driver is well made.  One that answers a failure has the
    failure's code, and for a reason the longest beginning of its message that ends between two
    characters and has at most 123 bytes. -/
theorem closings_wellMade (app : Application σ) (c : Connection σ) (bs : List Beat) :
    ∀ x ∈ closings app c bs, x.frame.WellMade ∧
      ∀ e ∈ x.failures, ∃ reason, x.frame = .close e.closeCode reason ∧
        CloseReason.Shortened 123 e.message reason := by
  intro x mem
  have parting := parting_of_closings mem
  exact ⟨wellMade_of_parting parting, fun e told => reason_of_parting parting told⟩

/-- A message of 125 bytes is cut off behind byte 121, for the next character has four. -/
theorem closings_wellMade_of_clefs :
    let app : Application Unit := ⟨.none, fun s _ => (s, ⟨[], .succeed⟩), fun _ => false⟩
    let e : Failure := .application (String.ofList (List.replicate 26 '𝄞'))
    let c₀ := establish false () .direct ⟨1⟩ .standard .zero .empty
    let bs : List Beat := [.act (.start false), .step, .step, .act (.abort e), .step, .step]
    let x : Closing := ⟨.close .serverError (CloseReason.ofFailure e), [e]⟩
    closings app c₀ bs = [x] ∧ x.frame.payload.length = 2 + 121 ∧ x.frame.WellMade ∧
      ∃ reason, x.frame = .close e.closeCode reason ∧
        CloseReason.Shortened 123 e.message reason := by
  intro app e c₀ bs x
  have sent : closings app c₀ bs = [x] := by decide +kernel
  have mem : x ∈ closings app c₀ bs := by
    rw [sent]
    exact List.mem_singleton_self x
  obtain ⟨well, reasons⟩ := closings_wellMade app c₀ bs x mem
  exact ⟨sent, by decide +kernel, well, reasons e (List.mem_singleton_self e)⟩

end Connection

end WebSocketEngine
