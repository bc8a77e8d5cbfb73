import WebSocketEngine.Completion.Future
import WebSocketEngine.Connection.Report
import WebSocketEngine.Host.Events
import WebSocketEngine.Idle.Report
import WebSocketEngine.Idle.Supervisor
import WebSocketEngine.Idle.Sweepers

/-!
One connection: a host, the frames that have arrived, and a driver that hands them over one by one.

The driver opens the handler, and then alternates between reading a frame and waiting for the
outcome of the one it has handed over.

    idle ──▶ starting ──▶ opening ──▶ reading ◀──▶ serving f
                             │           │            │
                             └───────────┴────────────┴──▶ finished

While it waits for an outcome, the outcome itself comes before an abort, and an abort before a
shutdown.  While it reads, a shutdown comes before an abort, and an abort before a frame.  Where the
application asks for frames itself, a unit of demand is taken before the frame; whether it does is
asked once per frame, when the reading begins.

A driver that always finds a frame and its outcome would never stop.  So its turn is over after
`Completion.fullPatience` outcomes, and the next one comes when all others that are ready have had theirs.
-/

namespace WebSocketEngine

namespace Connection

/-- How a connection ended. -/
inductive Ending
  | closed (code : CloseCode)
  | failed (e : Failure)
  | crashed (p : Panic)
  deriving DecidableEq

/-- What the driver does next. -/
inductive Phase
  /-- Nobody has started it. -/
  | idle
  | starting
  /-- It waits for the outcome of the opening. -/
  | opening
  /-- It waits for a frame, and before that for a unit of demand if it needs one. -/
  | reading (needsUnit : Bool)
  /-- It waits for the outcome of a frame. -/
  | serving (frame : Frame)
  | finished (ending : Ending)
  deriving DecidableEq

end Connection

structure Connection (σ : Type) where
  host : Host σ
  /-- Frames that the writer has fetched and not dealt with, the oldest one first. -/
  fetched : List Outbound
  /-- Frames that have arrived and were not read, the oldest one first. -/
  inbound : List Frame
  /-- No more frames will arrive. -/
  ended : Bool
  phase : Connection.Phase
  /-- How many outcomes the driver may still take before the others have their turns. -/
  patience : Nat
  /-- The driver runs on its own, and its crash is reported instead of passed on. -/
  detached : Bool
  supervisor : Idle.Supervisor Unit
  /-- It is registered with the supervisor. -/
  supervised : Bool
  sweepers : Idle.Sweepers
  /-- Callers so far whose work is awaited. -/
  callers : Nat
  /-- Waiters for demand so far. -/
  waiters : Nat

namespace Connection

/-- A connection that nobody has started yet. -/
def create (memory : σ) (handler : Handler) (id : ConnectionId) (config : Config)
    (interval : Duration) (house : House) : Connection σ where
  host :=
    { now := 0
      session := .start id config 0
      ledger := .empty
      memory
      held := []
      handler
      parked := []
      ready := []
      shutdown := false
      callbacks := 0
      verdict := none
      house
      journal := [] }
  fetched := []
  inbound := []
  ended := false
  phase := .idle
  patience := Completion.fullPatience
  detached := false
  supervisor := .every interval
  supervised := false
  sweepers := .none
  callers := 0
  waiters := 0

def id (c : Connection σ) : ConnectionId := c.host.session.id

/-- The connection was started and is not over. -/
def running (c : Connection σ) : Bool :=
  match c.phase with
  | .idle | .finished _ => false
  | .starting | .opening | .reading _ | .serving _ => true

/-- Lets the supervisor watch the connection. -/
def supervise (c : Connection σ) : Connection σ :=
  { c with supervisor := c.supervisor.register c.id (), supervised := true }

/-! ### Sweeps -/

/-- Tells the connection that it has been idle for too long. -/
def expire (c : Connection σ) (e : Idle.Expiry Unit) : Connection σ :=
  let h := (c.host.count .idleTimeout).log (Idle.expiryLine e.id e.idleFor)
  { c with host := h.abort (.idleTimeout e.idleFor) }

/-- One sweep of the supervisor; also says how many registrations expired. -/
def sweep (c : Connection σ) : Connection σ × Nat :=
  let (supervisor, expired, host) := c.supervisor.inspect (fun h _ => some h.checkIdle) c.host
  (expired.foldl expire { c with supervisor, host }, expired.length)

/-! ### Report -/

def describe (c : Connection σ) : String :=
  Describe.partly "Connection"
    [("session", c.host.session.describe), ("supervised", Describe.truth c.supervised)]

end Connection

end WebSocketEngine
