import WebSocketEngine.Application.Basic
import WebSocketEngine.Log
import WebSocketEngine.Message
import WebSocketEngine.Utf8.Validator

/-!
Frames into messages.

At most one message is open at a time: from its first frame that is not final until the frame that
ends it, or until something goes wrong.  A message in a single frame is never opened.

    PING, PONG               pass by
    CLOSE                    drops the open message; no data from here on
    TEXT, BINARY             begins a message; forbidden while one is open
    CONTINUATION             goes on with the open message; forbidden while none is
    any failure              drops the open message
-/

namespace WebSocketEngine.Assembly

/-- A message of which some frames are still to come. -/
structure Accumulator where
  kind : MessageKind
  buffer : Bytes
  validator : Utf8.Validator
  deriving DecidableEq

namespace Accumulator

def fresh (kind : MessageKind) : Accumulator := ⟨kind, [], .fresh⟩

/-- One more fragment.  The size is judged first, by the limit in force now. -/
def append (a : Accumulator) (chunk : Bytes) (limit : Option Nat) : Except Failure Accumulator :=
  match Message.checkSize a.kind (a.buffer.length + chunk.length) limit with
  | .error e => .error e
  | .ok _ =>
    match a.kind with
    | .binary => .ok { a with buffer := a.buffer ++ chunk }
    | .text =>
      match a.validator.feed chunk with
      | (_, .error e) => .error (.badPayload e.message)
      | (v, .ok _) => .ok { a with buffer := a.buffer ++ chunk, validator := v }

/-- The message, now that its last fragment is in. -/
def finish (a : Accumulator) : Except Failure Message :=
  match a.kind with
  | .binary => .ok (.binary a.buffer)
  | .text =>
    match a.validator.finish with
    | (_, .error e) => .error (.badPayload e.message)
    | (_, .ok _) => Message.ofBytes .text a.buffer

end Accumulator

/-! ### Log lines -/

def openedLine (kind : MessageKind) : Log.Line :=
  ⟨.debug, "opening " ++ kind.name ++ " message accumulator"⟩

def completeLine (kind : MessageKind) (size : Nat) : Log.Line :=
  ⟨.debug, kind.name ++ " message complete: size=" ++ toString size⟩

def discardedLine (kind : MessageKind) (size : Nat) : Log.Line :=
  ⟨.debug, "discarding partial " ++ kind.name ++ " message on close: accumulated="
    ++ toString size⟩

def rejectedLine (e : Failure) : Log.Line :=
  ⟨.warn, "frame rejected: error=" ++ e.message⟩

/-! ### Frames -/

structure Assembler where
  /-- A session was opened. -/
  attached : Bool
  /-- The message that is open. -/
  part : Option Accumulator
  /-- A CLOSE frame came, or the connection closed. -/
  closed : Bool
  deriving DecidableEq

/-- What a frame amounts to. -/
inductive Verdict
  /-- A PING or PONG frame. -/
  | control
  /-- A CLOSE frame. -/
  | ended
  /-- A fragment, after which more must come. -/
  | taken
  /-- The last frame of a message. -/
  | complete (m : Message)
  | refused (e : Failure)
  deriving DecidableEq

/-- A frame's effect: the assembler after it, its log lines and what it amounts to. -/
abbrev Effect := Assembler × List Log.Line × Verdict

namespace Assembler

def fresh : Assembler := ⟨false, none, false⟩

/-- The kind of the open message. -/
def openKind (a : Assembler) : Option MessageKind := a.part.map (·.kind)

/-- Drops the open message because of a failure. -/
def reject (a : Assembler) (lines : List Log.Line) (e : Failure) : Effect :=
  ({ a with part := none }, lines ++ [rejectedLine e], .refused e)

def afterClose : Failure := .protocolViolation "data frame received after CLOSE"

def orphan : Failure := .protocolViolation "continuation frame without an open message"

def interleaved (op : OpCode) (kind : MessageKind) : Failure :=
  .protocolViolation (op.name ++ " frame received while a " ++ kind.name ++ " message is open")

def unsupported (kind : MessageKind) : Failure :=
  .badPayload (kind.name ++ " messages are not supported")

/-- The kind of message that a data frame belongs to, by its opcode and what is open. -/
def kindOf (a : Assembler) (op : OpCode) : Except Failure MessageKind :=
  match MessageKind.ofOpCode? op, a.part with
  | none, some p => .ok p.kind
  | none, none => .error orphan
  | some _, some p => .error (interleaved op p.kind)
  | some k, none => .ok k

/-- A data frame that belongs to a message of a kind that is taken. -/
def takeData (a : Assembler) (kind : MessageKind) (limit : Option Nat) (f : Frame) : Effect :=
  if f.fin && a.part.isNone then
    match Message.ofSingleFrame kind f.payload limit with
    | .ok m => (a, [], .complete m)
    | .error e => a.reject [] e
  else
    let lines := if a.part.isNone then [openedLine kind] else []
    match (a.part.getD (.fresh kind)).append f.payload limit with
    | .error e => a.reject lines e
    | .ok p =>
      if !f.fin then ({ a with part := some p }, lines, .taken)
      else
        let lines := lines ++ [completeLine kind p.buffer.length]
        match p.finish with
        | .ok m => ({ a with part := none }, lines, .complete m)
        | .error e => a.reject lines e

def data (a : Assembler) (hooks : Hooks) (config : Config) (f : Frame) : Effect :=
  if a.closed then (a, [], .refused afterClose)
  else
    match a.kindOf f.op with
    | .error e => a.reject [] e
    | .ok kind =>
      if hooks.handles kind then a.takeData kind (config.limit kind) f
      else a.reject [] (unsupported kind)

/-- A CLOSE frame: nothing is open after it, and no data is taken. -/
def close (a : Assembler) : Effect :=
  let lines := a.part.toList.map fun p => discardedLine p.kind p.buffer.length
  ({ a with part := none, closed := true }, lines, .ended)

/-- One frame, with the configuration in force. -/
def step (a : Assembler) (hooks : Hooks) (config : Config) (f : Frame) : Effect :=
  match f.op with
  | .ping | .pong => (a, [], .control)
  | .close => a.close
  | .text | .binary | .continuation => a.data hooks config f

/-! ### The connection's own events -/

/-- A session is opened. -/
def opened (a : Assembler) : Assembler := { a with attached := true, closed := false }

/-- The connection fails. -/
def failed (a : Assembler) : Assembler := { a with part := none }

/-- The connection has closed. -/
def ended (a : Assembler) : Assembler := { a with part := none, closed := true }

def describe (a : Assembler) (hooks : Hooks) : String :=
  Describe.partly "MessageHandler"
    [("hooks", hooks.describe),
      ("open_message", Describe.maybe MessageKind.describe a.openKind),
      ("closed", Describe.truth a.closed)]

end Assembler

end WebSocketEngine.Assembly
