import WebSocketEngine.Proofs.Assembly.Fragmented
import WebSocketEngine.Proofs.Host.Granting

/-!
What a frame costs an application that completes every message at once.

A host that is handed the next one of the frames that carry messages delivers at most one message.
Either it does, or it gives back the unit that the frame was read for (`handed_of_carries`).
-/

namespace WebSocketEngine

variable {σ : Type}

/-- An application that completes every message at once and never crashes. -/
structure Application.Prompt (app : Application σ) : Prop where
  calm : app.Calm
  completes : ∀ s m, (app.react s (.message m)).2.reply = .succeed

def Call.message? : Call → Option Message
  | .message m => some m
  | _ => none

/-- The messages that the application was called with. -/
def Host.delivered (h : Host σ) : List Message := h.calls.filterMap Call.message?

namespace Assembly

variable {app : Application σ} {memory : σ} {h after : Host σ}

theorem World.reference_carryOut (w : World σ) (f : Frame) (ruling : Ruling) :
    (w.carryOut app f ruling).1.reference = w.reference := by
  cases ruling with
  | pass =>
    simp only [carryOut]
    split <;> rfl
  | close | keep | deliver _ | refuse _ | malformed => rfl

theorem carryOut_neutral (calm : app.Calm) (w : World σ) (f : Frame) {ruling : Ruling}
    (neutral : ruling.Neutral) :
    (w.carryOut app f ruling).2.expected = .outcome (some (.ok ())) ∧
      (w.carryOut app f ruling).2.kept = false ∧
      (w.carryOut app f ruling).2.calls.filterMap Call.message? = [] := by
  rcases neutral with rfl | rfl
  · simp only [World.carryOut]
    split
    · have calmly : ∀ p, (w.call app (.control f)).2 ≠ .panic p := calm _ _
      cases reply : (w.call app (.control f)).2 with
      | panic p => exact (calmly p reply).elim
      | succeed | fail _ | drop | hold => exact ⟨rfl, rfl, rfl⟩
    · exact ⟨rfl, rfl, rfl⟩
  · exact ⟨rfl, rfl, rfl⟩

theorem carryOut_deliver (prompt : app.Prompt) (w : World σ) (f : Frame) (m : Message) :
    (w.carryOut app f (.deliver m)).2.expected = .outcome (some (.ok ())) ∧
      (w.carryOut app f (.deliver m)).2.kept = false ∧
      (w.carryOut app f (.deliver m)).2.calls.filterMap Call.message? = [m] := by
  have reply : (w.call app (.message m)).2 = .succeed := prompt.completes _ _
  simp only [World.carryOut, reply]
  exact ⟨rfl, rfl, rfl⟩

/-- What came of a frame: the messages `got`, at most one, and `rest` still to come. -/
structure Handed (app : Application σ) (memory : σ) (f : Frame) (fs : List Frame)
    (h after : Host σ) (got rest : List Message) : Prop where
  onward : ∃ a part, after.handler = .assembling a ∧ a.Represents ⟨false, part⟩ ∧
    Carries part rest fs
  delivered : after.delivered = h.delivered ++ got
  completes : got.length = [f].countP completes
  /-- The unit that the frame cost is given back unless it bought a message. -/
  earns : ∃ back, back + got.length = 1 ∧ h.Earns app memory back after
  held : after.held = h.held
  verdict : after.verdict = some (.ok ())
  attached : after.attached = h.attached
  going : f.closeCode = none

theorem handed_of_carries (prompt : app.Prompt) (tidy : h.Tidy)
    (recalled : h.memory = app.recollect memory h.calls) (attached : h.attached = true)
    {a : Assembler} {part : Option (MessageKind × Bytes)} (handler : h.handler = .assembling a)
    (rep : a.Represents ⟨false, part⟩) {ms : List Message} {f : Frame} {fs : List Frame}
    (carried : Carries part ms (f :: fs))
    (ok : ∀ m ∈ ms, Acceptable app.hooks h.session.config m)
    (demanding : (hand app h ⟨[], f⟩).1.session.config.demanding = true) :
    ∃ got rest, ms = got ++ rest ∧
      Handed app memory f fs h (hand app h ⟨[], f⟩).1 got rest := by
  have mirrored : Mirrors ⟨h.memory, h.session.config, ⟨false, part⟩⟩ h :=
    ⟨rfl, rfl, a, handler, rep⟩
  obtain ⟨part', ruling, ruled, going, cases_⟩ := rule_of_carries app.hooks carried ok
  have settled := settled_hand app mirrored ⟨[], f⟩
  have earns := earns_hand prompt.calm mirrored tidy recalled attached f demanding
  simp only [World.hand, List.foldl_nil] at settled
  rw [ruled] at settled earns
  dsimp only at settled earns
  obtain ⟨_, _, a', next, rep'⟩ := settled.mirrors
  rw [World.reference_carryOut] at rep'
  let w : World σ := ⟨h.memory, h.session.config, ⟨false, part'⟩⟩
  have called (got : List Message)
      (eq : (w.carryOut app f ruling).2.calls.filterMap Call.message? = got) :
      (hand app h ⟨[], f⟩).1.delivered = h.delivered ++ got := by
    rw [Host.delivered, settled.calls, List.filterMap_append, eq]
    rfl
  have verdict (eq : (w.carryOut app f ruling).2.expected = .outcome (some (.ok ()))) :
      (hand app h ⟨[], f⟩).1.verdict = some (.ok ()) := by
    have admits := settled.outcome
    rwa [eq] at admits
  have held (eq : (w.carryOut app f ruling).2.kept = false) :
      (hand app h ⟨[], f⟩).1.held = h.held := by
    rw [settled.held, eq]
    exact List.append_nil _
  rcases cases_ with ⟨neutral, unfinished, onward⟩ | ⟨m, rest, rfl, rfl, finished, onward⟩
  · obtain ⟨expected, kept, calls⟩ := carryOut_neutral prompt.calm w f neutral
    refine ⟨[], ms, rfl, ⟨a', part', next, rep', onward⟩, called _ calls, ?_, ⟨1, rfl, ?_⟩,
      held kept, verdict expected, settled.attached, if_neg going⟩
    · simp [unfinished]
    · rcases neutral with rfl | rfl <;> exact earns
  · obtain ⟨expected, kept, calls⟩ := carryOut_deliver prompt w f m
    refine ⟨[m], rest, rfl, ⟨a', part', next, rep', onward⟩, called _ calls, ?_, ⟨0, rfl, earns⟩,
      held kept, verdict expected, settled.attached, if_neg going⟩
    simp [finished]

end Assembly

end WebSocketEngine
