import WebSocketEngine.Proofs.Host.Reopening
import WebSocketEngine.Proofs.Utf8.Owing

/-!
What is true of a handler whatever has happened to it, and the branches that nothing reaches.

    closed               ──▶ nothing is open
    something is open    ──▶ it is of a kind that is taken
    a text is open       ──▶ its validator has read what is in the buffer, and nothing else

A handler has branches for what cannot happen: a message that was open a moment ago and is gone, one
that is complete and that nobody takes, an accepted text that is none, a cut-off character that
breaks.  `Guarded` follows a frame through the handler, does what the handler does and stops at the
first such branch.  No history leads to one (`sound_and_unhindered`).
-/

namespace WebSocketEngine

variable {σ : Type}

open Assembly (Accumulator Assembler Effect Verdict)

/-- A branch for what cannot happen. -/
inductive Fallback
  /-- The message was open a moment ago, and is open no more. -/
  | vanished
  /-- The message is complete, and nobody takes its kind. -/
  | unhandled (kind : MessageKind)
  /-- The validator has accepted the text, and it is none. -/
  | undecodable (fault : Utf8.Fault)
  /-- The chunk ends inside a character, and this byte of the character cannot stand there. -/
  | stray (index : Nat)
  deriving DecidableEq

namespace Guarded

open Utf8 (Validator Refusal)

/-- The next chunk, for a validator. -/
def feed (v : Validator) (chunk : Bytes) : Except Fallback (Validator × Except Refusal Unit) :=
  match Validator.settle v.part 0 chunk with
  | .error (index, p) => .ok ({ v with part := p }, .error (.invalid (v.consumed + index)))
  | .ok (p, rest, index) =>
    match Utf8.fault? rest with
    | none => .ok (⟨p, v.consumed + chunk.length⟩, .ok ())
    | some (.malformed start _) =>
      .ok ({ v with part := p }, .error (.invalid (v.consumed + index + start)))
    | some (.cut start) =>
      match Validator.carry p (index + start) (rest.drop start) with
      | .ok q => .ok (⟨q, v.consumed + chunk.length⟩, .ok ())
      | .error (i, _) => .error (.stray i)

/-- One more fragment, for the open message. -/
def append (p : Accumulator) (chunk : Bytes) (limit : Option Nat) :
    Except Fallback (Except Failure Accumulator) :=
  match Message.checkSize p.kind (p.buffer.length + chunk.length) limit with
  | .error e => .ok (.error e)
  | .ok _ =>
    match p.kind with
    | .binary => .ok (.ok { p with buffer := p.buffer ++ chunk })
    | .text => do
      match ← feed p.validator chunk with
      | (_, .error e) => .ok (.error (.badPayload e.message))
      | (v, .ok _) => .ok (.ok { p with buffer := p.buffer ++ chunk, validator := v })

/-- The message, now that its last fragment is in. -/
def finish (p : Accumulator) : Except Fallback (Except Failure Message) :=
  match p.kind with
  | .binary => .ok (.ok (.binary p.buffer))
  | .text =>
    match p.validator.finish with
    | (_, .error e) => .ok (.error (.badPayload e.message))
    | (_, .ok _) =>
      match Utf8.decode p.buffer with
      | .ok s => .ok (.ok (.text s))
      | .error fault => .error (.undecodable fault)

/-- A data frame of a kind that is taken.  The open message stays in its place while it grows, and
    is taken from there when it is complete. -/
def takeData (a : Assembler) (kind : MessageKind) (limit : Option Nat) (f : Frame) :
    Except Fallback Effect :=
  if f.fin && a.part.isNone then
    match Message.ofSingleFrame kind f.payload limit with
    | .ok m => .ok (a, [], .complete m)
    | .error e => .ok (a.reject [] e)
  else do
    let lines := if a.part.isNone then [Assembly.openedLine kind] else []
    match ← append (a.part.getD (.fresh kind)) f.payload limit with
    | .error e => .ok (a.reject lines e)
    | .ok grown =>
      let a := { a with part := some grown }
      if !f.fin then .ok (a, lines, .taken)
      else
        match a.part with
        | none => .error .vanished
        | some p =>
          let a := { a with part := none }
          let lines := lines ++ [Assembly.completeLine kind p.buffer.length]
          match ← finish p with
          | .ok m => .ok (a, lines, .complete m)
          | .error e => .ok (a.reject lines e)

def data (a : Assembler) (hooks : Hooks) (config : Config) (f : Frame) : Except Fallback Effect :=
  if a.closed then .ok (a, [], .refused Assembler.afterClose)
  else
    match a.kindOf f.op with
    | .error e => .ok (a.reject [] e)
    | .ok kind =>
      if hooks.handles kind then takeData a kind (config.limit kind) f
      else .ok (a.reject [] (Assembler.unsupported kind))

def step (a : Assembler) (hooks : Hooks) (config : Config) (f : Frame) : Except Fallback Effect :=
  match f.op with
  | .ping | .pong => .ok (a, [], .control)
  | .close => .ok a.close
  | .text | .binary | .continuation => data a hooks config f

/-- A complete message goes to the callback for its kind. -/
def settleFrame (app : Application σ) (h : Host σ) (f : Frame) (t : Ticket) (v : Verdict) :
    Except Fallback (Host σ × Option Panic) :=
  match v with
  | .complete m =>
    if app.hooks.handles m.kind then
      let (h, reply) := h.call app (.message m)
      .ok (h.answer (.derived t) reply)
    else .error (.unhandled m.kind)
  | .control | .ended | .taken | .refused _ => .ok (h.settleFrame app f t v)

def frame (app : Application σ) (h : Host σ) (f : Frame) (t : Ticket) :
    Except Fallback (Host σ × Option Panic) :=
  let h := h.note (.handed (.frame f))
  match h.handler with
  | .direct =>
    let (h, reply) := h.call app (.frame f)
    .ok (h.answer t reply)
  | .assembling a => do
    let (a, lines, verdict) ← step a app.hooks h.session.config f
    settleFrame app (lines.foldl Host.log { h with handler := .assembling a }) f t verdict

end Guarded

/-! ### What holds of a handler -/

namespace Assembly

/-- The validator of a text has read what is in the buffer. -/
structure Accumulator.Sound (p : Accumulator) : Prop where
  reads : p.kind = .text → Utf8.run .boundary p.buffer = some p.validator.part
  count : p.kind = .text → p.validator.consumed = p.buffer.length

structure Assembler.Sound (a : Assembler) (hooks : Hooks) : Prop where
  idle : a.closed = true → a.part = none
  taken : ∀ p ∈ a.part, hooks.handles p.kind = true
  sound : ∀ p ∈ a.part, p.Sound

variable {p q : Accumulator} {a : Assembler} {hooks : Hooks} {kind : MessageKind} {chunk : Bytes}
  {limit : Option Nat}

theorem sound_fresh (kind : MessageKind) : (Accumulator.fresh kind).Sound :=
  ⟨fun _ => rfl, fun _ => rfl⟩

theorem Accumulator.Sound.valid (sound : p.Sound) (text : p.kind = .text) :
    p.validator.part.Valid :=
  Utf8.valid_of_run Utf8.valid_boundary (sound.reads text)

theorem Accumulator.Sound.append (sound : p.Sound) (appended : p.append chunk limit = .ok q) :
    q.Sound := by
  unfold Accumulator.append at appended
  split at appended
  · cases appended
  · split at appended
    · next binary =>
      cases appended
      constructor
      all_goals
        intro text
        cases binary.symm.trans text
    · next text =>
      rcases Utf8.Validator.feed_spec (sound.valid text) chunk with ⟨r, ran, fed⟩ | ⟨-, _, refused⟩
      · rw [fed] at appended
        cases appended
        refine ⟨fun _ => ?_, fun _ => ?_⟩
        · rw [Utf8.run_append, sound.reads text]
          exact ran
        · simp [sound.count text]
      · split at appended
        · cases appended
        · next fed =>
          rw [fed] at refused
          cases refused

theorem sound_of_idle (idle : a.part = none) : a.Sound hooks where
  idle _ := idle
  taken p open_ := by cases idle.symm.trans open_
  sound p open_ := by cases idle.symm.trans open_

theorem Assembler.Sound.represents (sound : a.Sound hooks) :
    a.Represents ⟨a.closed, a.part.map fun p => (p.kind, p.buffer)⟩ where
  closed := rfl
  part := by
    cases open_ : a.part with
    | none => exact .none
    | some p => exact .some ⟨rfl, rfl, (sound.sound p open_).reads⟩

/-- A data frame of a kind that is taken. -/
theorem Assembler.Sound.takeData (sound : a.Sound hooks) (unclosed : a.closed = false)
    (same : ∀ p ∈ a.part, p.kind = kind) (taken : hooks.handles kind = true) (limit : Option Nat)
    (f : Frame) : (a.takeData kind limit f).1.Sound hooks := by
  unfold Assembler.takeData
  split
  · split
    · exact sound
    · exact sound_of_idle rfl
  · dsimp only
    split
    · exact sound_of_idle rfl
    · next q appended =>
      split
      · have grown : (a.part.getD (.fresh kind)).kind = kind ∧ (a.part.getD (.fresh kind)).Sound := by
          cases open_ : a.part with
          | none => exact ⟨rfl, sound_fresh kind⟩
          | some p => exact ⟨same p open_, sound.sound p open_⟩
        constructor
        case idle =>
          intro closed
          cases unclosed.symm.trans closed
        case taken =>
          rintro p ⟨⟩
          rw [(buffer_of_append appended).1, grown.1]
          exact taken
        case sound =>
          rintro p ⟨⟩
          exact grown.2.append appended
      · split
        · exact sound_of_idle rfl
        · exact sound_of_idle rfl

/-- What holds of an assembler holds of it after one more frame. -/
theorem Assembler.Sound.step (sound : a.Sound hooks) (config : Config) (f : Frame) :
    (a.step hooks config f).1.Sound hooks := by
  have taken : (a.data hooks config f).1.Sound hooks := by
    unfold Assembler.data
    split
    · exact sound
    · next unclosed =>
      split
      · exact sound_of_idle rfl
      · next kind found =>
        split
        · next handled =>
          exact sound.takeData (by simpa using unclosed) (kind_of_kindOf found) handled _ f
        · exact sound_of_idle rfl
  unfold Assembler.step
  split
  · exact sound
  · exact sound
  · exact sound_of_idle rfl
  all_goals exact taken

end Assembly

/-! ### Branches that are not reached -/

namespace Guarded

open Utf8 (Validator)

variable {app : Application σ} {p : Accumulator} {a : Assembler} {hooks : Hooks}

/-- A character that the end of a chunk cuts off does not break before it. -/
theorem feed_eq {v : Validator} (valid : v.part.Valid) (chunk : Bytes) :
    feed v chunk = .ok (v.feed chunk) := by
  unfold feed Validator.feed
  cases settled : Validator.settle v.part 0 chunk with
  | error e => rfl
  | ok result =>
    obtain ⟨q, rest, index⟩ := result
    dsimp only
    cases judged : Utf8.fault? rest with
    | none => rfl
    | some fault =>
      cases fault with
      | malformed start width => rfl
      | cut start =>
        obtain ⟨used, -, ran, done⟩ := Validator.settle_ok settled
        have boundary : q = .boundary := by
          rcases done with settled | rfl
          · exact (Utf8.valid_of_run valid ran).eq_boundary settled
          · cases judged
        obtain ⟨r, -, carried⟩ := Validator.exists_carry_of_cut judged
        rw [boundary]
        dsimp only
        rw [carried]

theorem append_eq (sound : p.Sound) (chunk : Bytes) (limit : Option Nat) :
    append p chunk limit = .ok (p.append chunk limit) := by
  unfold append Accumulator.append
  cases Message.checkSize p.kind (p.buffer.length + chunk.length) limit with
  | error e => rfl
  | ok size =>
    dsimp only
    cases text : p.kind with
    | binary => rfl
    | text =>
      dsimp only
      rw [feed_eq (sound.valid text)]
      dsimp only [bind, Except.bind]
      cases p.validator.feed chunk with
      | mk v answer => cases answer <;> rfl

/-- What the validator accepts is a text. -/
theorem finish_eq (sound : p.Sound) : finish p = .ok p.finish := by
  unfold finish Accumulator.finish
  cases text : p.kind with
  | binary => rfl
  | text =>
    cases complete : p.validator.isComplete with
    | false => simp [Validator.finish, complete]
    | true =>
      have reads := sound.reads text
      rw [(sound.valid text).eq_boundary complete, Utf8.run_eq_boundary_iff] at reads
      simp [Validator.finish, complete, Message.ofBytes, Utf8.decode_of_wellFormed reads]

/-- A validator that has not read the buffer accepts what is no text. -/
example : finish ⟨.text, [0xFF], .fresh⟩ = .error (.undecodable (.malformed 0 1)) := by
  decide

/-- The open message is where it was put. -/
theorem takeData_eq (sound : a.Sound hooks) (kind : MessageKind) (limit : Option Nat) (f : Frame) :
    takeData a kind limit f = .ok (a.takeData kind limit f) := by
  unfold takeData Assembler.takeData
  have grown : (a.part.getD (.fresh kind)).Sound := by
    cases open_ : a.part with
    | none => exact Assembly.sound_fresh kind
    | some p => exact sound.sound p open_
  split
  · cases Message.ofSingleFrame kind f.payload limit <;> rfl
  · rw [append_eq grown]
    dsimp only [bind, Except.bind]
    cases appended : (a.part.getD (.fresh kind)).append f.payload limit with
    | error e => rfl
    | ok q =>
      dsimp only
      split
      · rfl
      · rw [finish_eq (grown.append appended)]
        dsimp only
        cases q.finish <;> rfl

theorem step_eq (sound : a.Sound hooks) (config : Config) (f : Frame) :
    step a hooks config f = .ok (a.step hooks config f) := by
  have data_eq : data a hooks config f = .ok (a.data hooks config f) := by
    unfold data Assembler.data
    split
    · rfl
    · cases a.kindOf f.op with
      | error e => rfl
      | ok kind =>
        dsimp only
        split
        · exact takeData_eq sound kind _ f
        · rfl
  unfold step Assembler.step
  cases f.op with
  | ping | pong | close => rfl
  | text | binary | continuation => exact data_eq

/-- What is complete is taken. -/
theorem handles_of_complete (sound : a.Sound hooks) {config : Config} {f : Frame} {m : Message}
    (completed : (a.step hooks config f).2.2 = .complete m) : hooks.handles m.kind = true := by
  obtain ⟨-, covers⟩ := Assembly.agrees_step sound.represents hooks config f
  rw [completed] at covers
  generalize ruled : (Assembly.Reference.rule _ hooks config f).2 = ruling at covers
  cases covers
  exact Assembly.handles_of_deliver ruled

theorem settleFrame_eq {v : Verdict} (taken : ∀ m, v = .complete m → app.hooks.handles m.kind = true)
    (h : Host σ) (f : Frame) (t : Ticket) :
    settleFrame app h f t v = .ok (h.settleFrame app f t v) := by
  cases v with
  | control | ended | taken | refused => rfl
  | complete m => simp only [settleFrame, Host.settleFrame, taken m rfl, if_true]

theorem frame_eq {h : Host σ} (handler : h.handler = .assembling a) (sound : a.Sound app.hooks)
    (f : Frame) (t : Ticket) : frame app h f t = .ok (h.frame app f t) := by
  have kept : (h.note (.handed (.frame f))).handler = .assembling a := handler
  unfold frame Host.frame
  generalize h.note (.handed (.frame f)) = noted at kept
  simp only [kept, step_eq sound]
  exact settleFrame_eq (fun m => handles_of_complete sound) _ f t

end Guarded

/-! ### Histories -/

namespace Attendant

variable {app : Application σ}

theorem sound_after (app : Application σ) (memory : σ) (past : History σ) :
    ((new memory).after app past).assembler.Sound app.hooks := by
  induction past using List.reverseRecOn with
  | nil => exact Assembly.sound_of_idle rfl
  | append_singleton past x sound =>
    obtain ⟨k, x⟩ := x
    rw [after_concat]
    generalize (new memory).after app past = s at sound ⊢
    cases x with
    | frame f t =>
      rw [assembler_frame]
      exact sound.step k.session.config f
    | failed e =>
      rw [assembler_failed]
      exact Assembly.sound_of_idle rfl
    | closed code =>
      rw [assembler_closed]
      exact Assembly.sound_of_idle rfl
    | opened t =>
      obtain ⟨-, -, next⟩ := respond_opened app s k t
      split at next
      · rw [next.1]
        exact ⟨(fun closed => by cases closed), sound.taken, sound.sound⟩
      · rw [next]
        exact sound

/-- Whatever has happened to a handler: if it is closed, nothing is open; what is open is of a kind
    that is taken; the validator of an open text has counted the bytes in the buffer, and its state
    is what the last character in it lacks.  And no frame, whatever surrounds the handler, then leads
    to a branch for what cannot happen. -/
theorem sound_and_unhindered (app : Application σ) (memory : σ) (past : History σ) :
    let s := (new memory).after app past
    (s.assembler.closed = true → s.assembler.part = none) ∧
      (∀ p ∈ s.assembler.part, app.hooks.handles p.kind = true) ∧
      (∀ p ∈ s.assembler.part, p.kind = .text →
        p.validator.consumed = p.buffer.length ∧ Utf8.Owes p.buffer p.validator.part) ∧
      ∀ k f t, Guarded.frame app (s.inside k) f t = .ok ((s.inside k).frame app f t) := by
  intro s
  have sound : s.assembler.Sound app.hooks := sound_after app memory past
  refine ⟨sound.idle, sound.taken, fun p open_ text => ?_, fun k f t => ?_⟩
  · have held := sound.sound p open_
    exact ⟨held.count text, Utf8.owes_of_run (held.reads text)⟩
  · exact Guarded.frame_eq rfl sound f t

/-- A text that is cut inside a character. -/
theorem sound_and_unhindered_cut :
    let app : Application Unit :=
      ⟨{ Hooks.none with onText := true }, fun s _ => (s, ⟨[], .succeed⟩), fun _ => false⟩
    let k : Host Unit := (Connection.create () .direct ⟨1⟩ .standard .zero .empty).host
    let t : Ticket := .root .silent
    let past : History Unit := [(k, .opened t), (k, .frame ⟨.text, false, [0x61, 0xF0]⟩ t)]
    let last : Frame := ⟨.continuation, true, [0x9F, 0x98, 0x80]⟩
    let s := (new ()).after app past
    let p : Accumulator := ⟨.text, [0x61, 0xF0], ⟨⟨3, 0x90, 0xBF⟩, 2⟩⟩
    s.assembler.part = some p ∧
      (∀ b, Utf8.Begins (p.buffer ++ [b]) ↔ 0x90 ≤ b ∧ b ≤ 0xBF) ∧
      (Guarded.frame app (s.inside k) last t).map (·.1.calls) =
        .ok [.message (.text (String.ofList ['a', Char.ofNat 0x1F600]))] := by
  intro app k t past last s p
  have open_ : s.assembler.part = some p := by decide
  obtain ⟨-, -, texts, unhindered⟩ := sound_and_unhindered app () past
  obtain ⟨-, owes⟩ := texts p open_ rfl
  refine ⟨open_, owes.next (by decide), ?_⟩
  rw [unhindered k last t]
  decide

end Attendant

end WebSocketEngine
