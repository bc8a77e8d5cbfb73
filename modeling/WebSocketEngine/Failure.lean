import WebSocketEngine.CloseCode
import WebSocketEngine.Duration
import WebSocketEngine.Frame
import WebSocketEngine.Text.Describe
import WebSocketEngine.Text.Quoted

/-!
What can go wrong on one connection.

A failure is a cause; its message, its label for logs and counters and the close code that answers
it are functions of the cause.  None of them is ever retried.
-/

namespace WebSocketEngine

/-- The two kinds of message. -/
inductive MessageKind
  | text
  | binary
  deriving DecidableEq

namespace MessageKind

/-- The kind of message that an opcode opens. -/
def ofOpCode? : OpCode → Option MessageKind
  | .text => some text
  | .binary => some binary
  | _ => none

/-- The opcode of the first frame of a message. -/
def op : MessageKind → OpCode
  | text => .text
  | binary => .binary

def name (k : MessageKind) : String := k.op.name

def describe : MessageKind → String
  | text => "Text"
  | binary => "Binary"

end MessageKind

/-- Why frames of a connection could not be processed. -/
inductive Failure
  /-- Malformed text, or a kind of message that the application does not take. -/
  | badPayload (reason : String)
  /-- A message would grow to `attempted` bytes, over its limit. -/
  | messageTooLarge (kind : MessageKind) (attempted limit : Nat)
  /-- Frames came in an order that the protocol forbids. -/
  | protocolViolation (reason : String)
  /-- Nothing was read or written for too long. -/
  | idleTimeout (after : Duration)
  /-- A completion was dropped before it was resolved. -/
  | cancelled
  /-- The application failed a completion that it was given. -/
  | application (reason : String)
  /-- A frame could not be delivered. -/
  | transport (reason : String)
  deriving DecidableEq

namespace Failure

/-- The code of the CLOSE frame that answers the failure. -/
def closeCode : Failure → CloseCode
  | badPayload _ => .badPayload
  | messageTooLarge .. => .messageTooLarge
  | protocolViolation _ => .protocolError
  | idleTimeout _ | cancelled => .goingAway
  | application _ | transport _ => .serverError

/-- The name of the failure's kind in logs and counters. -/
def label : Failure → String
  | badPayload _ => "bad_payload"
  | messageTooLarge .. => "message_too_large"
  | protocolViolation _ => "protocol"
  | idleTimeout _ => "idle_timeout"
  | cancelled => "cancelled"
  | application _ => "application"
  | transport _ => "transport"

def message : Failure → String
  | badPayload reason => "bad payload: " ++ reason
  | messageTooLarge kind attempted limit =>
    kind.name ++ " message too large: " ++ toString attempted ++ " bytes > "
      ++ toString limit ++ " bytes"
  | protocolViolation reason => "protocol violation: " ++ reason
  | idleTimeout after => "idle timeout expired after " ++ after.text
  | cancelled => "completion dropped before it was resolved"
  | application reason => "application failure: " ++ reason
  | transport reason => "transport failure: " ++ reason

def describe : Failure → String
  | badPayload reason => Describe.record "BadPayload" [("reason", Text.quoted reason)]
  | messageTooLarge kind attempted limit =>
    Describe.record "MessageTooLarge"
      [("kind", kind.describe), ("attempted", toString attempted), ("limit", toString limit)]
  | protocolViolation reason => Describe.record "Protocol" [("reason", Text.quoted reason)]
  | idleTimeout after => Describe.record "IdleTimeout" [("after", after.text)]
  | cancelled => "Cancelled"
  | application reason => Describe.wrapped "Application" (Text.quoted reason)
  | transport reason => Describe.wrapped "Transport" (Text.quoted reason)

end Failure

/-- How a piece of work ended. -/
abbrev Outcome := Except Failure Unit

instance : DecidableEq Outcome
  | .ok _, .ok _ => isTrue rfl
  | .error e, .error f => decidable_of_iff (e = f) (by simp)
  | .ok _, .error _ => isFalse (by simp)
  | .error _, .ok _ => isFalse (by simp)

/-! ### The reason a CLOSE frame can carry -/

namespace CloseReason

/-- The most bytes that a reason may have. -/
def capacity : Nat := 123

/-- The longest run of characters from the front that has at most `room` bytes. -/
def fitting (room : Nat) : List Char → List Char
  | [] => []
  | c :: cs => if c.utf8Size ≤ room then c :: fitting (room - c.utf8Size) cs else []

/-- The failure's message, cut off before the first character that does not fit. -/
def ofFailure (e : Failure) : String :=
  String.ofList (fitting capacity e.message.toList)

end CloseReason

end WebSocketEngine
