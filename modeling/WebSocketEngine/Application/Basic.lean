import WebSocketEngine.Config.Basic
import WebSocketEngine.Message
import WebSocketEngine.Panic

/-!
An application, seen from the sessions it serves.

It says which callbacks it has installed and how it reacts to each call: what it does with the
session, and how it answers.  What it remembers between calls is a state of its own; nothing else
about it matters.
-/

namespace WebSocketEngine

/-- Which callbacks are installed, and whether the application asks for frames itself. -/
structure Hooks where
  onOpen : Bool
  onText : Bool
  onBinary : Bool
  onControl : Bool
  onError : Bool
  onClosed : Bool
  demanding : Bool
  deriving DecidableEq

namespace Hooks

/-- No callback at all. -/
def none : Hooks := ⟨false, false, false, false, false, false, false⟩

/-- Messages of this kind are taken. -/
def handles (h : Hooks) : MessageKind → Bool
  | .text => h.onText
  | .binary => h.onBinary

/-- The configuration that a session starts with: the demand flag is set where the application asks
    for frames itself. -/
def prepare (h : Hooks) (c : Config) : Config := if h.demanding then c.setDemanding true else c

def describe (h : Hooks) : String :=
  Describe.record "MessageHooks"
    [("on_open", Describe.truth h.onOpen), ("on_text", Describe.truth h.onText),
      ("on_binary", Describe.truth h.onBinary), ("on_control", Describe.truth h.onControl),
      ("on_error", Describe.truth h.onError), ("on_closed", Describe.truth h.onClosed),
      ("demanding", Describe.truth h.demanding)]

end Hooks

/-- What an application is called with. -/
inductive Call
  | opened
  | message (m : Message)
  /-- A PING or PONG frame went by. -/
  | control (frame : Frame)
  /-- A frame, for an application that takes frames instead of messages. -/
  | frame (frame : Frame)
  | failed (error : Failure)
  | closed (code : CloseCode)
  deriving DecidableEq

/-- What an application does with its session while it is called.  A caller's number, where there
    is one, says who waits for what is sent. -/
inductive Act
  | change (c : Config.Change)
  | setIdleTimeout (d : Duration)
  | demand (n : UInt64)
  | send (frame : Frame) (batch : Bool) (caller : Option Nat)
  | sendMessage (kind : MessageKind) (chunks : List Bytes) (batch : Bool) (caller : Option Nat)
  | abort (error : Failure)
  | shutdown

/-- How an application answers a call.  Calls without a completion heed only `panic`. -/
inductive Reply
  | succeed
  | fail (error : Failure)
  /-- Lets the completion go without resolving it. -/
  | drop
  /-- Keeps the completion for later. -/
  | hold
  /-- Crashes; the completion is dropped. -/
  | panic (p : Panic)

structure Reaction where
  acts : List Act
  reply : Reply

/-- An application with states in `σ`. -/
structure Application (σ : Type) where
  hooks : Hooks
  react : σ → Call → σ × Reaction
  /-- Asks for frames itself; heeded only when it takes frames instead of messages. -/
  demands : σ → Bool

end WebSocketEngine
