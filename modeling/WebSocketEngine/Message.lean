import WebSocketEngine.Failure

/-!
Whole messages, and what a payload must satisfy to be one.

The size is judged before the text, so a payload that is both too long and malformed is too long.
-/

namespace WebSocketEngine

/-- A complete message. -/
inductive Message
  | text (content : String)
  | binary (content : Bytes)
  deriving DecidableEq

namespace Message

def kind : Message → MessageKind
  | text _ => .text
  | binary _ => .binary

/-- The bytes that carry the message. -/
def bytes : Message → Bytes
  | text s => Utf8.encode s
  | binary bs => bs

/-- A message of `size` bytes is refused if there is a limit and `size` is over it. -/
def checkSize (kind : MessageKind) (size : Nat) : Option Nat → Except Failure Unit
  | some limit => if limit < size then .error (.messageTooLarge kind size limit) else .ok ()
  | none => .ok ()

/-- The bytes as a message, if a text is UTF-8. -/
def ofBytes (kind : MessageKind) (bs : Bytes) : Except Failure Message :=
  match kind with
  | .binary => .ok (.binary bs)
  | .text =>
    match Utf8.decode bs with
    | .ok s => .ok (.text s)
    | .error fault => .error (.badPayload fault.message)

/-- The message that a single frame carries. -/
def ofSingleFrame (kind : MessageKind) (payload : Bytes) (limit : Option Nat) :
    Except Failure Message := do
  checkSize kind payload.length limit
  ofBytes kind payload

end Message

end WebSocketEngine
