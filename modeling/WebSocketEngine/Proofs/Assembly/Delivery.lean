import WebSocketEngine.Proofs.Assembly.Reference
import WebSocketEngine.Proofs.Host.Handling
import Mathlib.Data.List.Defs

/-!
What an application and its peers see of the frames of a session.

A `World` is an application served by the reference: no session, no tokens, no queues.  Whatever
frames come in, whatever the application does when it is called, and however the configuration
changes between the frames, a host with an assembler makes the same calls, settles the completion
of each frame in the same way and has the same message open (`frames_follow_reference`).
-/

namespace WebSocketEngine.Assembly

variable {σ : Type}

/-- A frame, and the changes of the configuration that were made before it. -/
structure Arrival where
  changes : List Config.Change
  frame : Frame

/-- What is seen of a frame once it was handed over. -/
structure Seen where
  /-- The calls of the application that the frame led to. -/
  calls : List Call
  /-- The outcome of the frame's completion; nothing as long as it is not resolved. -/
  outcome : Option Outcome
  /-- The application keeps a token that stands for the frame's completion. -/
  kept : Bool
  /-- The kind of the message that is open now. -/
  openKind : Option MessageKind

/-! ### The host -/

/-- What a host shows of a frame with the completion `t`, by what there was before it. -/
def seen (before after : Host σ) (t : Ticket) : Seen where
  calls := after.calls.drop before.calls.length
  outcome := after.verdict
  kept := after.held = before.held ++ [.derived t]
  openKind := match after.handler with
    | .assembling a => a.openKind
    | .direct => none

/-- Hands a frame over, after some changes of the configuration, with a completion that nobody else
    has. -/
def hand (app : Application σ) (h : Host σ) (x : Arrival) : Host σ × Seen :=
  let (waiting, t) :=
    Connection.handOver (x.changes.foldl (fun h c => h.configure (·.apply c)) h)
  let (after, _) := waiting.frame app x.frame t
  (after, seen h after t)

/-- What is seen of frames that are handed over one after another. -/
def handAll (app : Application σ) (h : Host σ) : List Arrival → List Seen
  | [] => []
  | x :: xs => (hand app h x).2 :: handAll app (hand app h x).1 xs

/-! ### The reference -/

/-- An application that the reference serves. -/
structure World (σ : Type) where
  memory : σ
  config : Config
  reference : Reference

/-- How the reference has the completion of a frame end. -/
inductive Expected
  | outcome (o : Option Outcome)
  /-- With a refusal of the text, in whatever words. -/
  | malformed

/-- A completion may stand like this. -/
def Expected.Admits : Expected → Option Outcome → Prop
  | .outcome o, x => x = o
  | .malformed, x => ∃ reason, x = some (.error (.badPayload reason))

/-- What the reference has to be seen of a frame. -/
structure Sight where
  calls : List Call
  expected : Expected
  kept : Bool
  openKind : Option MessageKind

/-- What is seen is as the reference has it. -/
structure Sight.Shows (s : Sight) (x : Seen) : Prop where
  calls : x.calls = s.calls
  outcome : s.expected.Admits x.outcome
  kept : x.kept = s.kept
  openKind : x.openKind = s.openKind

/-- What a reply makes of the token that the application was given. -/
def outcomeOf : Reply → Option Outcome
  | .succeed => some (.ok ())
  | .fail e => some (.error e)
  | .drop | .panic _ => some (.error .cancelled)
  | .hold => none

/-- The reply keeps the token. -/
def keeps : Reply → Bool
  | .hold => true
  | .succeed | .fail _ | .drop | .panic _ => false

namespace World

/-- A call of the application. -/
def call (app : Application σ) (w : World σ) (c : Call) : World σ × Reply :=
  let (memory, r) := app.react w.memory c
  ({ w with memory, config := r.acts.foldl Act.configure w.config }, r.reply)

/-- A frame that does not concern the application. -/
def answer (w : World σ) (e : Expected) : World σ × Sight :=
  (w, ⟨[], e, false, w.reference.part.map (·.1)⟩)

/-- Carries out a ruling on a frame. -/
def carryOut (app : Application σ) (w : World σ) (f : Frame) : Ruling → World σ × Sight
  | .pass =>
    if app.hooks.onControl then
      let (w, reply) := w.call app (.control f)
      -- A PING or PONG succeeds unless the application crashes.
      let o : Outcome := match reply with
        | .panic _ => .error .cancelled
        | _ => .ok ()
      (w, ⟨[.control f], .outcome (some o), false, w.reference.part.map (·.1)⟩)
    else w.answer (.outcome (some (.ok ())))
  | .close | .keep => w.answer (.outcome (some (.ok ())))
  | .deliver m =>
    let (w, reply) := w.call app (.message m)
    (w, ⟨[.message m], .outcome (outcomeOf reply), keeps reply, w.reference.part.map (·.1)⟩)
  | .refuse e => w.answer (.outcome (some (.error e)))
  | .malformed => w.answer .malformed

def hand (app : Application σ) (w : World σ) (x : Arrival) : World σ × Sight :=
  let config := x.changes.foldl Config.apply w.config
  let (reference, ruling) := w.reference.rule app.hooks config x.frame
  { w with config, reference }.carryOut app x.frame ruling

def handAll (app : Application σ) (w : World σ) : List Arrival → List Sight
  | [] => []
  | x :: xs => (w.hand app x).2 :: handAll app (w.hand app x).1 xs

end World

/-! ### The host mirrors the world -/

/-- The host's application, configuration and open message are the world's. -/
structure Mirrors (w : World σ) (h : Host σ) : Prop where
  memory : h.memory = w.memory
  config : h.session.config = w.config
  handler : ∃ a : Assembler, h.handler = .assembling a ∧ a.Represents w.reference

/-- A delivered message is of the kind that its frames had. -/
theorem deliver_join {r : Reference} {kind : MessageKind} {total : Bytes} {limit : Option Nat}
    {fin : Bool} {m : Message} (ruled : (r.join kind total limit fin).2 = .deliver m) :
    m.kind = kind := by
  unfold Reference.join at ruled
  split at ruled
  · cases ruled
  · cases ruled; rfl
  · cases ruled
  · dsimp only at ruled
    split at ruled
    · cases ruled; rfl
    · cases ruled
  · split at ruled <;> cases ruled

theorem openKind_of_represents {a : Assembler} {r : Reference} (rep : a.Represents r) :
    a.openKind = r.part.map (·.1) := by
  obtain ⟨_, part, _⟩ := a
  obtain ⟨_, open_⟩ := r
  obtain ⟨_, rel⟩ := rep
  cases rel with
  | none => rfl
  | some rep => exact congrArg some rep.sort

/-- The reference delivers only what the application takes. -/
theorem handles_of_deliver {r : Reference} {hooks : Hooks} {config : Config} {f : Frame}
    {m : Message} (ruled : (r.rule hooks config f).2 = .deliver m) :
    hooks.handles m.kind = true := by
  have joined : ∀ (kind : MessageKind) (before : Bytes),
      (r.extend hooks config kind before f).2 = .deliver m → hooks.handles m.kind = true := by
    intro kind before ruled
    unfold Reference.extend at ruled
    split at ruled
    · next taken =>
      rw [deliver_join ruled]
      exact taken
    · cases ruled
  unfold Reference.rule at ruled
  split at ruled
  · cases ruled
  · cases ruled
  · cases ruled
  all_goals
    unfold Reference.data at ruled
    split at ruled
    · cases ruled
    · split at ruled
      · cases ruled
      · exact joined _ _ ruled
      · exact joined _ _ ruled
      · cases ruled

/-- The host after a frame with the completion `t`, by what there was before it: it mirrors the
    world, and its record goes on as the reference has it. -/
structure Settled (w : World σ) (s : Sight) (before after : Host σ) (t : Ticket) : Prop where
  mirrors : Mirrors w after
  attached : after.attached = before.attached
  calls : after.calls = before.calls ++ s.calls
  outcome : s.expected.Admits after.verdict
  held : after.held = before.held ++ (if s.kept then [.derived t] else [])
  openKind : s.openKind = w.reference.part.map (·.1)

theorem Settled.shows {w : World σ} {s : Sight} {before after : Host σ} {t : Ticket}
    (settled : Settled w s before after t) : s.Shows (seen before after t) := by
  obtain ⟨a, handler, rep⟩ := settled.mirrors.handler
  refine ⟨?_, settled.outcome, ?_, ?_⟩
  · simp only [seen, settled.calls, List.drop_left]
  · rw [seen, settled.held]
    cases s.kept <;> simp
  · rw [settled.openKind, seen, handler]
    exact openKind_of_represents rep

/-! ### One frame -/

theorem front_foldl_configure (h : Host σ) (changes : List Config.Change) :
    (changes.foldl (fun h c => h.configure (·.apply c)) h).front =
      { h.front with config := changes.foldl Config.apply h.session.config } := by
  induction changes generalizing h with
  | nil => rfl
  | cons c changes ih => exact ih _

theorem callbacks_foldl_configure (h : Host σ) (changes : List Config.Change) :
    (changes.foldl (fun h c => h.configure (·.apply c)) h).callbacks = h.callbacks :=
  congrArg Host.Front.callbacks (front_foldl_configure h changes)

/-- Frames neither open the session nor take it away. -/
theorem attached_step (a : Assembler) (hooks : Hooks) (config : Config) (f : Frame) :
    (a.step hooks config f).1.attached = a.attached := by
  have taken (kind : MessageKind) (limit : Option Nat) :
      (a.takeData kind limit f).1.attached = a.attached := by
    unfold Assembler.takeData
    repeat' split
    all_goals rfl
  unfold Assembler.step
  split
  · rfl
  · rfl
  · rfl
  all_goals
    unfold Assembler.data
    split
    · rfl
    · split
      · rfl
      · split
        · exact taken _ _
        · rfl

section Settling

variable (app : Application σ) {w : World σ} {k : Host σ} {n : Nat}

/-- A frame is settled as the reference has it, by the fronts before and after it. -/
theorem settled_of_front {after : Host σ} {t : Ticket} {calls : List Call} {v : Option Outcome}
    {kept : Bool} {a : Assembler} (handler : k.handler = .assembling a)
    (rep : a.Represents w.reference)
    (front : after.front = ⟨w.memory, w.config, k.handler,
      k.held ++ (if kept then [.derived t] else []), k.callbacks, v, k.calls ++ calls⟩) :
    Settled w ⟨calls, .outcome v, kept, w.reference.part.map (·.1)⟩ k after t := by
  have memory : after.memory = _ := congrArg Host.Front.memory front
  have config : after.session.config = _ := congrArg Host.Front.config front
  have same : after.handler = k.handler := congrArg Host.Front.handler front
  refine ⟨⟨memory, config, a, same.trans handler, rep⟩, ?_, congrArg Host.Front.calls front,
    congrArg Host.Front.verdict front, congrArg Host.Front.held front, rfl⟩
  rw [Host.attached, Host.attached, same]

/-- The frame does not concern the application. -/
theorem settled_answer (mirrored : Mirrors w k) (last : k.callbacks = n) (o : Outcome)
    {after : Host σ} (front : after.front = (k.resolve (.root (.driver n)) o).front) :
    Settled w (w.answer (.outcome (some o))).2 k after (.root (.driver n)) := by
  obtain ⟨memory, config, a, handler, rep⟩ := mirrored
  refine settled_of_front handler rep (front.trans ?_)
  rw [Host.front_resolve_callback last, Host.front, memory, config]
  simp

theorem settled_malformed (mirrored : Mirrors w k) (last : k.callbacks = n) (reason : String)
    {after : Host σ}
    (front : after.front = (k.resolve (.root (.driver n)) (.error (.badPayload reason))).front) :
    Settled w (w.answer .malformed).2 k after (.root (.driver n)) := by
  have settled := settled_answer mirrored last _ front
  exact { settled with outcome := ⟨reason, settled.outcome⟩ }

theorem reply_of_mirrors (mirrored : Mirrors w k) (c : Call) :
    (k.call app c).2 = (w.call app c).2 := by
  unfold Host.call World.call
  rw [mirrored.memory]

/-- The frame is a call of the application. -/
theorem settled_call (mirrored : Mirrors w k) (c : Call) {t : Ticket} {v : Option Outcome}
    {kept : Bool} {after : Host σ}
    (front : after.front =
      { (k.call app c).1.front with
        verdict := v, held := k.held ++ (if kept then [.derived t] else []) }) :
    Settled (w.call app c).1 ⟨[c], .outcome v, kept, w.reference.part.map (·.1)⟩ k after t := by
  obtain ⟨memory, config, a, handler, rep⟩ := mirrored
  refine settled_of_front (w := (w.call app c).1) handler rep (front.trans ?_)
  rw [Host.front_call, memory, config]
  rfl

theorem callbacks_call (c : Call) : (k.call app c).1.callbacks = k.callbacks :=
  congrArg Host.Front.callbacks (Host.front_call app k c)

theorem held_call (c : Call) : (k.call app c).1.held = k.held :=
  congrArg Host.Front.held (Host.front_call app k c)

theorem verdict_call (c : Call) : (k.call app c).1.verdict = k.verdict :=
  congrArg Host.Front.verdict (Host.front_call app k c)

/-- A token that the application was called with ends as its reply has it. -/
theorem front_answer (last : k.callbacks = n) (waiting : k.verdict = none) (reply : Reply) :
    (k.answer (.derived (.root (.driver n))) reply).1.front =
      { k.front with
        verdict := outcomeOf reply
        held := k.held ++ (if keeps reply then [.derived (.root (.driver n))] else []) } := by
  have resolved (o : Outcome) : (k.resolve (.derived (.root (.driver n))) o).front =
      { k.front with verdict := some o, held := k.held ++ [] } := by
    rw [List.append_nil]
    exact Host.front_resolve_callback last o
  cases reply with
  | succeed => exact resolved _
  | fail e => exact resolved _
  | drop => exact resolved _
  | panic p => exact resolved _
  | hold =>
    simp only [Host.answer, outcomeOf, keeps, if_true, ← waiting]
    rfl

/-- A verdict settles a frame as the ruling that it covers. -/
theorem settled_settleFrame (mirrored : Mirrors w k) (last : k.callbacks = n)
    (waiting : k.verdict = none) (f : Frame) {ruling : Ruling} {verdict : Verdict}
    (covers : ruling.Covers verdict)
    (taken : ∀ m, ruling = .deliver m → app.hooks.handles m.kind = true) :
    Settled (w.carryOut app f ruling).1 (w.carryOut app f ruling).2 k
      (k.settleFrame app f (.root (.driver n)) verdict).1 (.root (.driver n)) := by
  cases covers with
  | close => exact settled_answer mirrored last _ rfl
  | keep => exact settled_answer mirrored last _ (Host.front_giveBack _)
  | refuse e => exact settled_answer mirrored last _ rfl
  | malformed reason => exact settled_malformed mirrored last reason rfl
  | deliver m =>
    have callbacks := (callbacks_call app (k := k) (.message m)).trans last
    have unresolved := (verdict_call app (k := k) (.message m)).trans waiting
    have answered := front_answer callbacks unresolved (k.call app (.message m)).2
    rw [held_call] at answered
    simp only [Host.settleFrame, taken m rfl, if_true, World.carryOut,
      ← reply_of_mirrors app mirrored]
    exact settled_call app mirrored _ answered
  | pass =>
    simp only [Host.settleFrame, Host.callIf, World.carryOut]
    cases app.hooks.onControl with
    | false => exact settled_answer mirrored last _ (Host.front_giveBack _)
    | true =>
      have callbacks := (callbacks_call app (k := k) (.control f)).trans last
      have ended (o : Outcome) :
          ((k.call app (.control f)).1.resolve (.root (.driver n)) o).front =
            { (k.call app (.control f)).1.front with
              verdict := some o
              held := k.held ++ (if false then [.derived (.root (.driver n))] else []) } := by
        rw [Host.front_resolve_callback callbacks, ← held_call app (.control f)]
        simp [Host.front]
      simp only [if_true, ← reply_of_mirrors app mirrored]
      have crashed := settled_call app mirrored (.control f) (ended (.error .cancelled))
      have passed := settled_call app mirrored (.control f)
        ((Host.front_giveBack _).trans (ended (.ok ())))
      cases reply : k.call app (.control f) with
      | mk called answer =>
        rw [reply] at crashed passed
        cases answer with
        | panic p => exact crashed
        | succeed | fail _ | drop | hold => exact passed

end Settling

/-- The host after its assembler `a` has judged a frame and before the frame is settled. -/
def judged (app : Application σ) (h : Host σ) (a : Assembler) (x : Arrival) : Host σ :=
  let waiting :=
    (Connection.handOver (x.changes.foldl (fun h c => h.configure (·.apply c)) h)).1
  let (a, lines, _) := a.step app.hooks (x.changes.foldl Config.apply h.session.config) x.frame
  lines.foldl Host.log { waiting.note (.handed (.frame x.frame)) with handler := .assembling a }

theorem front_judged (app : Application σ) (h : Host σ) (a : Assembler) (x : Arrival) :
    (judged app h a x).front =
      { h.front with
        config := x.changes.foldl Config.apply h.session.config
        handler := .assembling
          (a.step app.hooks (x.changes.foldl Config.apply h.session.config) x.frame).1
        callbacks := h.callbacks + 1
        verdict := none } := by
  have noted (k : Host σ) (handler : Handler) :
      { k.note (.handed (.frame x.frame)) with handler }.front = { k.front with handler } :=
    congrArg (fun front : Host.Front σ => { front with handler }) (Host.front_note k rfl)
  have waiting (k : Host σ) : (Connection.handOver k).1.front =
      { k.front with callbacks := k.callbacks + 1, verdict := none } := rfl
  unfold judged
  rw [Host.front_foldl_log, noted, waiting, front_foldl_configure, callbacks_foldl_configure]

theorem hand_eq_settleFrame (app : Application σ) {h : Host σ} {a : Assembler}
    (handler : h.handler = .assembling a) (x : Arrival) :
    (hand app h x).1 =
      ((judged app h a x).settleFrame app x.frame (.root (.driver (h.callbacks + 1)))
        (a.step app.hooks (x.changes.foldl Config.apply h.session.config) x.frame).2.2).1 := by
  have configured := front_foldl_configure h x.changes
  have config : (x.changes.foldl (fun h c => h.configure (·.apply c)) h).session.config = _ :=
    congrArg Host.Front.config configured
  have same : (x.changes.foldl (fun h c => h.configure (·.apply c)) h).handler = _ :=
    (congrArg Host.Front.handler configured).trans handler
  unfold hand judged Connection.handOver Host.frame Host.note
  dsimp only
  rw [same, config, callbacks_foldl_configure]

/-- Every frame is settled as the reference has it. -/
theorem settled_hand (app : Application σ) {w : World σ} {h : Host σ} (mirrored : Mirrors w h)
    (x : Arrival) :
    Settled (w.hand app x).1 (w.hand app x).2 h (hand app h x).1
      (.root (.driver (h.callbacks + 1))) := by
  obtain ⟨memory, config, a, handler, rep⟩ := mirrored
  obtain ⟨next, covers⟩ := agrees_step rep app.hooks (x.changes.foldl Config.apply w.config) x.frame
  have front := front_judged app h a x
  have handed := hand_eq_settleFrame app handler x
  rw [config] at front handed
  have judging : (judged app h a x).handler = _ := congrArg Host.Front.handler front
  have ruled : Mirrors
      { w with
        config := x.changes.foldl Config.apply w.config
        reference :=
          (w.reference.rule app.hooks (x.changes.foldl Config.apply w.config) x.frame).1 }
      (judged app h a x) :=
    ⟨(congrArg Host.Front.memory front).trans memory, congrArg Host.Front.config front, _,
      judging, next⟩
  have last : (judged app h a x).callbacks = h.callbacks + 1 := congrArg Host.Front.callbacks front
  have settled := settled_settleFrame app ruled last (congrArg Host.Front.verdict front) x.frame
    covers fun m => handles_of_deliver
  have attached : (judged app h a x).attached = h.attached := by
    rw [Host.attached, Host.attached, judging, handler]
    exact attached_step a _ _ _
  have calls : (judged app h a x).calls = h.calls := congrArg Host.Front.calls front
  have held : (judged app h a x).held = h.held := congrArg Host.Front.held front
  rw [← handed] at settled
  exact ⟨settled.mirrors, settled.attached.trans attached, calls ▸ settled.calls, settled.outcome,
    held ▸ settled.held, settled.openKind⟩

theorem shows_hand (app : Application σ) {w : World σ} {h : Host σ} (mirrored : Mirrors w h)
    (x : Arrival) : (w.hand app x).2.Shows (hand app h x).2 := by
  have shown := (settled_hand app mirrored x).shows
  rwa [← callbacks_foldl_configure h x.changes] at shown

/-! ### All frames -/

/-- Whatever frames come in, a host with an assembler shows of them what the reference has to be
    seen of them, frame by frame. -/
theorem frames_follow_reference (app : Application σ) (h : Host σ) (attached : Bool)
    (xs : List Arrival) :
    List.Forall₂ Sight.Shows
      (World.handAll app ⟨h.memory, h.session.config, .fresh⟩ xs)
      (handAll app { h with handler := .assembling ⟨attached, none, false⟩ } xs) := by
  have all : ∀ (w : World σ) (h : Host σ), Mirrors w h →
      List.Forall₂ Sight.Shows (World.handAll app w xs) (handAll app h xs) := by
    induction xs with
    | nil => intros; exact .nil
    | cons x xs ih =>
      intro w h mirrored
      exact .cons (shows_hand app mirrored x) (ih _ _ (settled_hand app mirrored x).mirrors)
  exact all _ _ ⟨rfl, rfl, _, rfl, rfl, .none⟩

end WebSocketEngine.Assembly
