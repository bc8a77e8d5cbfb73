import WebSocketEngine.Completion.Token
import WebSocketEngine.Config.Basic
import WebSocketEngine.ConnectionId
import WebSocketEngine.Idle.Tracker

/-!
One session: what it has accepted for sending, what it has been granted, and how it stands.

Frames are accepted in the order in which they are offered until a CLOSE has been sent or the writer
has gone away.  Demand is counted in units that wrap at 2^64.  The first reason to abort is the one
that stays.

    offer    CLOSE sent before ──▶ refused
             writer gone       ──▶ refused
             otherwise         ──▶ at the end of the outbox
-/

namespace WebSocketEngine

/-- Who hears of the outcome of work on a session. -/
inductive Sink
  /-- Nobody. -/
  | silent
  /-- A caller, by number. -/
  | caller (number : Nat)
  /-- The connection that handed over a callback, by the number of the callback. -/
  | driver (number : Nat)
  deriving DecidableEq

/-- A token of the work on a session. -/
abbrev Ticket := Completion.Token Sink

/-- A frame that waits for the writer. -/
structure Outbound where
  frame : Frame
  ticket : Ticket
  /-- More frames follow, so that flushing can wait. -/
  batch : Bool

structure Session where
  id : ConnectionId
  config : Config
  /-- Units of demand that nobody has taken. -/
  demand : UInt64
  closeSent : Bool
  tracker : Idle.Tracker
  /-- Accepted frames that the writer has not fetched, oldest first; nothing once the writer is
      gone. -/
  outbox : Option (List Outbound)
  abortReason : Option Failure

namespace Session

def start (id : ConnectionId) (config : Config) (now : Instant) : Session :=
  ⟨id, config, 0, false, .start now, some [], none⟩

/-! ### Sending -/

def alreadyClosed : Failure := .transport "session already closed"

def writerGone : Failure := .transport "writer has gone away"

def notOpen : Failure := .transport "session is not open"

/-- Offers a frame; gives the failure of its ticket if the frame is refused. -/
def offer (s : Session) (now : Instant) (out : Outbound) : Session × Option Failure :=
  if s.closeSent then (s, some alreadyClosed)
  else
    let s := { s with
      closeSent := out.frame.op = OpCode.close
      tracker := s.tracker.touch now }
    match s.outbox with
    | some queue => ({ s with outbox := some (queue ++ [out]) }, none)
    | none => (s, some writerGone)

/-! ### Demand -/

def grant (s : Session) (n : UInt64) : Session := { s with demand := s.demand + n }

/-- One unit less, if there is one. -/
def take? (s : Session) : Option Session :=
  if s.demand = 0 then none else some { s with demand := s.demand - 1 }

/-! ### Report -/

def describe (s : Session) : String :=
  Describe.partly "ChannelSession"
    [("id", s.id.text), ("demand", toString s.demand.toNat),
      ("close_sent", Describe.truth s.closeSent)]

end Session

end WebSocketEngine
