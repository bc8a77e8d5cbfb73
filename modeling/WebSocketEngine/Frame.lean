import WebSocketEngine.CloseCode
import WebSocketEngine.Utf8.Lossy
import WebSocketEngine.Text.Describe

/-!
Frames as the transport hands them over: an opcode, the final-fragment flag and a payload.

The payload of a CLOSE frame is a codec of its own: nothing at all, or two bytes of status (high
byte first) and a reason in UTF-8.
-/

namespace WebSocketEngine

/-- What a frame is for. -/
inductive OpCode
  | continuation
  | text
  | binary
  | close
  | ping
  | pong
  deriving DecidableEq

namespace OpCode

def isControl : OpCode → Bool
  | close | ping | pong => true
  | continuation | text | binary => false

def isData (op : OpCode) : Bool := !op.isControl

/-- The number on the wire. -/
def wire : OpCode → Nat
  | continuation => 0x0
  | text => 0x1
  | binary => 0x2
  | close => 0x8
  | ping => 0x9
  | pong => 0xA

def name : OpCode → String
  | continuation => "CONTINUATION"
  | text => "TEXT"
  | binary => "BINARY"
  | close => "CLOSE"
  | ping => "PING"
  | pong => "PONG"

end OpCode

/-- One frame. -/
structure Frame where
  op : OpCode
  fin : Bool
  payload : Bytes
  deriving DecidableEq

namespace Frame

/-! ### Making frames -/

def text (s : String) : Frame := ⟨.text, true, Utf8.encode s⟩

def binary (data : Bytes) : Frame := ⟨.binary, true, data⟩

def ping (data : Bytes) : Frame := ⟨.ping, true, data⟩

def pong (data : Bytes) : Frame := ⟨.pong, true, data⟩

/-- The two bytes of a status, high byte first. -/
def statusBytes (n : UInt16) : Bytes := [(n >>> 8).toUInt8, n.toUInt8]

/-- A CLOSE frame; `noStatus` leaves the payload empty and drops the reason. -/
def close (code : CloseCode) (reason : String) : Frame :=
  if code = .noStatus then ⟨.close, true, []⟩
  else ⟨.close, true, statusBytes code.value ++ Utf8.encode reason⟩

/-! ### Reading CLOSE frames -/

/-- The status of a CLOSE frame that carries one. -/
def closeStatus (f : Frame) : Option UInt16 :=
  match f.op, f.payload with
  | .close, high :: low :: _ => some (high.toUInt16 <<< 8 ||| low.toUInt16)
  | _, _ => none

/-- The code of a CLOSE frame; a frame without status has the code `noStatus`. -/
def closeCode (f : Frame) : Option CloseCode :=
  if f.op = .close then some ((f.closeStatus.map CloseCode.ofValue).getD .noStatus) else none

/-- The reason of a CLOSE frame that carries a status. -/
def closeReason (f : Frame) : Option String :=
  f.closeStatus.map fun _ => Utf8.decodeLossy (f.payload.drop 2)

/-- Opcode, final flag and payload length, as in `TEXT[fin=true,len=3]`. -/
def summary (f : Frame) : String :=
  f.op.name ++ "[fin=" ++ Describe.truth f.fin ++ ",len=" ++ toString f.payload.length ++ "]"

end Frame

end WebSocketEngine
