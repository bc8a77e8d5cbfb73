import WebSocketEngine.Assembly.Assembler
import WebSocketEngine.Proofs.Utf8.Chunks

/-!
Frames into messages, by whole messages.

The reference remembers the bytes of the open message and nothing else; it judges each frame by all
bytes of the message so far.  An assembler, with its two ways of taking a message and its validator,
comes to the same with every frame (`agrees_step`).

    PING, PONG                      pass by
    CLOSE                           drops the open message; no data from here on
    data after CLOSE                refused
    out of order                    refused
    kind that nobody takes          refused
    total over the limit            refused
    text that cannot be UTF-8       refused
    otherwise                       kept, or delivered if the frame is final
-/

namespace WebSocketEngine.Assembly

open Utf8 (WellFormed Begins textOf)

/-- Whether data is over, and the kind and the bytes of the open message. -/
structure Reference where
  closed : Bool
  part : Option (MessageKind × Bytes)
  deriving DecidableEq

/-- What the reference says of a frame. -/
inductive Ruling
  /-- A PING or PONG frame. -/
  | pass
  /-- A CLOSE frame. -/
  | close
  /-- A fragment, after which more must come. -/
  | keep
  | deliver (m : Message)
  | refuse (e : Failure)
  /-- The bytes are no text; the wording of the refusal is left open. -/
  | malformed

namespace Reference

def fresh : Reference := ⟨false, none⟩

/-- A frame after which the message has the bytes `total`. -/
def join (r : Reference) (kind : MessageKind) (total : Bytes) (limit : Option Nat) (fin : Bool) :
    Reference × Ruling :=
  match limit.filter (· < total.length), kind, fin with
  | some l, _, _ => ({ r with part := none }, .refuse (.messageTooLarge kind total.length l))
  | none, .binary, true => ({ r with part := none }, .deliver (.binary total))
  | none, .binary, false => ({ r with part := some (.binary, total) }, .keep)
  | none, .text, true =>
    ({ r with part := none },
      if h : WellFormed total then .deliver (.text (textOf total h)) else .malformed)
  | none, .text, false =>
    if Begins total then ({ r with part := some (.text, total) }, .keep)
    else ({ r with part := none }, .malformed)

/-- A data frame of a message whose bytes before it are `before`. -/
def extend (r : Reference) (hooks : Hooks) (config : Config) (kind : MessageKind) (before : Bytes)
    (f : Frame) : Reference × Ruling :=
  if hooks.handles kind then r.join kind (before ++ f.payload) (config.limit kind) f.fin
  else ({ r with part := none }, .refuse (Assembler.unsupported kind))

def data (r : Reference) (hooks : Hooks) (config : Config) (f : Frame) : Reference × Ruling :=
  if r.closed then (r, .refuse Assembler.afterClose)
  else
    match MessageKind.ofOpCode? f.op, r.part with
    | none, none => ({ r with part := none }, .refuse Assembler.orphan)
    | none, some (kind, before) => r.extend hooks config kind before f
    | some kind, none => r.extend hooks config kind [] f
    | some _, some (kind, _) =>
      ({ r with part := none }, .refuse (Assembler.interleaved f.op kind))

/-- One frame, with the configuration in force. -/
def rule (r : Reference) (hooks : Hooks) (config : Config) (f : Frame) : Reference × Ruling :=
  match f.op with
  | .ping | .pong => (r, .pass)
  | .close => (⟨true, none⟩, .close)
  | .text | .binary | .continuation => r.data hooks config f

end Reference

/-! ### Accumulators -/

/-- The fragments that came in are those of `bytes`, and the validator has read all of them. -/
structure Accumulator.Represents (p : Accumulator) (kind : MessageKind) (bytes : Bytes) : Prop where
  sort : p.kind = kind
  holds : p.buffer = bytes
  reads : kind = .text → Utf8.run .boundary bytes = some p.validator.part

theorem represents_fresh (kind : MessageKind) : (Accumulator.fresh kind).Represents kind [] :=
  ⟨rfl, rfl, fun _ => rfl⟩

theorem checkSize_of_filter {kind : MessageKind} {size : Nat} {limit : Option Nat} :
    Message.checkSize kind size limit =
      match limit.filter (· < size) with
      | some l => .error (.messageTooLarge kind size l)
      | none => .ok () := by
  cases limit with
  | none => rfl
  | some l =>
    rw [Message.checkSize, Option.filter_some]
    by_cases beyond : l < size <;> simp [beyond]

variable {p : Accumulator} {kind : MessageKind} {bytes chunk : Bytes} {limit : Option Nat}

theorem append_of_over {l : Nat} (rep : p.Represents kind bytes)
    (beyond : limit.filter (· < (bytes ++ chunk).length) = some l) :
    p.append chunk limit = .error (.messageTooLarge kind (bytes ++ chunk).length l) := by
  rw [Accumulator.append, rep.sort, rep.holds, ← List.length_append, checkSize_of_filter, beyond]

theorem append_binary (rep : p.Represents .binary bytes)
    (fits : limit.filter (· < (bytes ++ chunk).length) = none) :
    ∃ q, p.append chunk limit = .ok q ∧ q.Represents .binary (bytes ++ chunk) := by
  rw [Accumulator.append, rep.sort, rep.holds, ← List.length_append, checkSize_of_filter, fits]
  exact ⟨_, rfl, rfl, rfl, by simp⟩

theorem append_text (rep : p.Represents .text bytes)
    (fits : limit.filter (· < (bytes ++ chunk).length) = none) (begins : Begins (bytes ++ chunk)) :
    ∃ q, p.append chunk limit = .ok q ∧ q.Represents .text (bytes ++ chunk) := by
  obtain ⟨q, ran⟩ := Option.ne_none_iff_exists'.mp (Utf8.run_ne_none_iff.mpr begins)
  have onward : Utf8.run p.validator.part chunk = some q := by
    rwa [Utf8.run_append, rep.reads rfl] at ran
  have valid := Utf8.valid_of_run Utf8.valid_boundary (rep.reads rfl)
  have fed := Utf8.Validator.feed_of_run valid onward
  rw [Accumulator.append, rep.sort, rep.holds, ← List.length_append, checkSize_of_filter, fits, fed]
  exact ⟨_, rfl, rfl, rfl, fun _ => ran⟩

theorem append_malformed (rep : p.Represents .text bytes)
    (fits : limit.filter (· < (bytes ++ chunk).length) = none)
    (begins : ¬ Begins (bytes ++ chunk)) :
    ∃ reason, p.append chunk limit = .error (.badPayload reason) := by
  have onward : Utf8.run p.validator.part chunk = none := by
    have ran := Utf8.run_eq_none_iff.mpr begins
    rwa [Utf8.run_append, rep.reads rfl] at ran
  obtain ⟨offset, refused⟩ := Utf8.Validator.feed_of_refused
    (Utf8.valid_of_run Utf8.valid_boundary (rep.reads rfl)) onward
  rw [Accumulator.append, rep.sort, rep.holds, ← List.length_append, checkSize_of_filter, fits]
  cases fed : p.validator.feed chunk with
  | mk v answer =>
    rw [fed] at refused
    cases refused
    exact ⟨_, rfl⟩

theorem finish_binary (rep : p.Represents .binary bytes) : p.finish = .ok (.binary bytes) := by
  rw [Accumulator.finish, rep.sort, rep.holds]

theorem finish_text (rep : p.Represents .text bytes) (well : WellFormed bytes) :
    p.finish = .ok (.text (textOf bytes well)) := by
  have ended : p.validator.part = .boundary := by
    have ran := rep.reads rfl
    rw [Utf8.run_eq_boundary_iff.mpr well] at ran
    exact (Option.some.inj ran).symm
  rw [Accumulator.finish, rep.sort, rep.holds]
  simp only [Utf8.Validator.finish, Utf8.Validator.isComplete, ended, Message.ofBytes,
    Utf8.decode_of_wellFormed well]
  rfl

theorem finish_malformed (rep : p.Represents .text bytes) (ill : ¬ WellFormed bytes) :
    ∃ reason, p.finish = .error (.badPayload reason) := by
  have open_ : p.validator.part.isBoundary = false := by
    rw [Bool.eq_false_iff]
    intro boundary
    apply ill
    have ran := rep.reads rfl
    rw [(Utf8.valid_of_run Utf8.valid_boundary ran).eq_boundary boundary] at ran
    exact Utf8.run_eq_boundary_iff.mp ran
  rw [Accumulator.finish, rep.sort]
  simp only [Utf8.Validator.finish, Utf8.Validator.isComplete, open_]
  exact ⟨_, rfl⟩

theorem ofSingleFrame_of_over {l : Nat} (beyond : limit.filter (· < bytes.length) = some l) :
    Message.ofSingleFrame kind bytes limit = .error (.messageTooLarge kind bytes.length l) := by
  rw [Message.ofSingleFrame, checkSize_of_filter, beyond]
  rfl

theorem ofSingleFrame_of_fits (fits : limit.filter (· < bytes.length) = none) :
    Message.ofSingleFrame kind bytes limit = Message.ofBytes kind bytes := by
  rw [Message.ofSingleFrame, checkSize_of_filter, fits]
  rfl

theorem ofBytes_malformed (ill : ¬ WellFormed bytes) :
    ∃ reason, Message.ofBytes .text bytes = .error (.badPayload reason) := by
  obtain ⟨fault, decoded⟩ := Utf8.decode_of_not_wellFormed ill
  rw [Message.ofBytes, decoded]
  exact ⟨_, rfl⟩

/-! ### Assemblers -/

/-- The assembler's open message is the reference's. -/
structure Assembler.Represents (a : Assembler) (r : Reference) : Prop where
  closed : a.closed = r.closed
  part : Option.Rel (fun p m => Accumulator.Represents p m.1 m.2) a.part r.part

/-- A verdict is what a ruling says, but for the wording of a text's refusal. -/
inductive Ruling.Covers : Ruling → Verdict → Prop
  | pass : Covers .pass .control
  | close : Covers .close .ended
  | keep : Covers .keep .taken
  | deliver (m : Message) : Covers (.deliver m) (.complete m)
  | refuse (e : Failure) : Covers (.refuse e) (.refused e)
  | malformed (reason : String) : Covers .malformed (.refused (.badPayload reason))

/-- The state and the verdict after a frame are as the reference has them. -/
def Agrees (effect : Effect) (ruled : Reference × Ruling) : Prop :=
  effect.1.Represents ruled.1 ∧ ruled.2.Covers effect.2.2

variable {a : Assembler} {r : Reference}

theorem agrees_reject (same : a.closed = r.closed) (lines : List Log.Line) (e : Failure) :
    Agrees (a.reject lines e) ({ r with part := none }, .refuse e) :=
  ⟨⟨same, .none⟩, .refuse e⟩

theorem agrees_reject_malformed (same : a.closed = r.closed) (lines : List Log.Line)
    (reason : String) :
    Agrees (a.reject lines (.badPayload reason)) ({ r with part := none }, .malformed) :=
  ⟨⟨same, .none⟩, .malformed reason⟩

/-- A message in a single frame. -/
theorem agrees_takeData_single (same : a.closed = r.closed) (idle : a.part = none) {f : Frame}
    (fin : f.fin = true) :
    Agrees (a.takeData kind limit f) (r.join kind f.payload limit true) := by
  have emptied : a.Represents { r with part := none } := ⟨same, by rw [idle]; exact .none⟩
  rw [Assembler.takeData, fin, idle]
  simp only [Option.isNone_none, Bool.and_self, if_true, Reference.join]
  cases beyond : limit.filter (· < f.payload.length) with
  | some l =>
    rw [ofSingleFrame_of_over beyond]
    exact agrees_reject same [] _
  | none =>
    rw [ofSingleFrame_of_fits beyond]
    cases kind with
    | binary => exact ⟨emptied, .deliver _⟩
    | text =>
      by_cases well : WellFormed f.payload
      · rw [Message.ofBytes, Utf8.decode_of_wellFormed well]
        simp only [well, dite_true]
        exact ⟨emptied, .deliver _⟩
      · obtain ⟨reason, refused⟩ := ofBytes_malformed well
        rw [refused]
        simp only [well, dite_false]
        exact agrees_reject_malformed same [] reason

/-- A fragment that came in by the accumulator. -/
theorem agrees_takeData_part (same : a.closed = r.closed)
    (rep : (a.part.getD (.fresh kind)).Represents kind bytes) {f : Frame}
    (split : (f.fin && a.part.isNone) = false) :
    Agrees (a.takeData kind limit f) (r.join kind (bytes ++ f.payload) limit f.fin) := by
  rw [Assembler.takeData, split]
  simp only [Bool.false_eq_true, if_false, Reference.join]
  generalize a.part.getD (.fresh kind) = p at rep
  cases beyond : limit.filter (· < (bytes ++ f.payload).length) with
  | some l =>
    rw [append_of_over rep beyond]
    exact agrees_reject same _ _
  | none =>
    cases kind with
    | binary =>
      obtain ⟨q, appended, next⟩ := append_binary rep beyond
      rw [appended]
      cases fin : f.fin with
      | false => exact ⟨⟨same, .some next⟩, .keep⟩
      | true =>
        simp only [Bool.not_true, Bool.false_eq_true, if_false, finish_binary next]
        exact ⟨⟨same, .none⟩, .deliver _⟩
    | text =>
      by_cases begins : Begins (bytes ++ f.payload)
      · obtain ⟨q, appended, next⟩ := append_text rep beyond begins
        rw [appended]
        cases fin : f.fin with
        | false =>
          simp only [begins, if_true]
          exact ⟨⟨same, .some next⟩, .keep⟩
        | true =>
          simp only [Bool.not_true, Bool.false_eq_true, if_false]
          by_cases well : WellFormed (bytes ++ f.payload)
          · rw [finish_text next well]
            simp only [well, dite_true]
            exact ⟨⟨same, .none⟩, .deliver _⟩
          · obtain ⟨reason, refused⟩ := finish_malformed next well
            rw [refused]
            simp only [well, dite_false]
            exact agrees_reject_malformed same _ reason
      · obtain ⟨reason, refused⟩ := append_malformed rep beyond begins
        have ill : ¬ WellFormed (bytes ++ f.payload) := fun well => begins well.begins
        rw [refused]
        cases fin : f.fin with
        | false =>
          simp only [begins, if_false]
          exact agrees_reject_malformed same _ reason
        | true =>
          simp only [ill, dite_false]
          exact agrees_reject_malformed same _ reason

/-- A data frame of a message of which `before` has come in. -/
theorem agrees_takeData (same : a.closed = r.closed) {before : Bytes}
    (rep : (a.part.getD (.fresh kind)).Represents kind before) (idle : a.part = none → before = [])
    (f : Frame) :
    Agrees (a.takeData kind limit f) (r.join kind (before ++ f.payload) limit f.fin) := by
  cases single : f.fin && a.part.isNone with
  | false => exact agrees_takeData_part same rep single
  | true =>
    obtain ⟨fin, none⟩ := (Bool.and_eq_true _ _).mp single
    have empty := Option.isNone_iff_eq_none.mp none
    rw [idle empty, fin]
    exact agrees_takeData_single same empty fin

theorem agrees_extend (same : a.closed = r.closed) {before : Bytes}
    (rep : (a.part.getD (.fresh kind)).Represents kind before) (idle : a.part = none → before = [])
    (hooks : Hooks) (config : Config) (f : Frame) :
    Agrees
      (if hooks.handles kind then a.takeData kind (config.limit kind) f
        else a.reject [] (Assembler.unsupported kind))
      (r.extend hooks config kind before f) := by
  unfold Reference.extend
  split
  · exact agrees_takeData same rep idle f
  · exact agrees_reject same [] _

theorem agrees_data (rep : a.Represents r) (hooks : Hooks) (config : Config) (f : Frame) :
    Agrees (a.data hooks config f) (r.data hooks config f) := by
  obtain ⟨attached, part, closed⟩ := a
  obtain ⟨rclosed, open_⟩ := r
  obtain ⟨rfl, rel⟩ := rep
  simp only [Assembler.data, Reference.data, Assembler.kindOf]
  by_cases shut : closed = true
  · rw [if_pos shut, if_pos shut]
    exact ⟨⟨rfl, rel⟩, .refuse _⟩
  rw [if_neg shut, if_neg shut]
  cases rel with
  | none =>
    cases MessageKind.ofOpCode? f.op with
    | none => exact agrees_reject (a := ⟨attached, none, closed⟩) (r := ⟨closed, none⟩) rfl [] _
    | some kind =>
      exact agrees_extend (a := ⟨attached, none, closed⟩) (r := ⟨closed, none⟩) rfl
        (represents_fresh kind) (fun _ => rfl) hooks config f
  | @some p m rep =>
    obtain ⟨kind, before⟩ := m
    cases MessageKind.ofOpCode? f.op with
    | none =>
      obtain rfl : p.kind = kind := rep.sort
      exact agrees_extend (a := ⟨attached, some p, closed⟩)
        (r := ⟨closed, some (p.kind, before)⟩) rfl rep (fun none => by cases none) hooks config f
    | some _ =>
      obtain rfl : p.kind = kind := rep.sort
      exact agrees_reject (a := ⟨attached, some p, closed⟩)
        (r := ⟨closed, some (p.kind, before)⟩) rfl [] _

/-- Every frame takes an assembler and the reference to the same state, with the same result. -/
theorem agrees_step (rep : a.Represents r) (hooks : Hooks) (config : Config) (f : Frame) :
    Agrees (a.step hooks config f) (r.rule hooks config f) := by
  unfold Assembler.step Reference.rule
  cases f.op with
  | ping | pong => exact ⟨rep, .pass⟩
  | close => exact ⟨⟨rfl, .none⟩, .close⟩
  | text | binary | continuation => exact agrees_data rep hooks config f

end WebSocketEngine.Assembly
