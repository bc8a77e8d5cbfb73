import WebSocketEngine.ConnectionId
import WebSocketEngine.Duration
import WebSocketEngine.Idle.Sweepers
import WebSocketEngine.Idle.Tracker
import WebSocketEngine.Text.Describe

/-!
Idle checks for many connections.

A sweep goes through the registrations twice.  The first pass checks each tracker, drops the
registrations whose tracker is gone and collects those that have expired just now; the second one,
which is the caller's, notifies the collected ones in turn.  A notification may change the
registrations, and that changes nothing about who else is notified in the same sweep.
-/

namespace WebSocketEngine.Idle

/-- The registrations, each with what is to be watched and told. -/
structure Supervisor (κ : Type) where
  interval : Duration
  entries : List (ConnectionId × κ)

/-- A registration that expired, and how long it has been idle. -/
structure Expiry (κ : Type) where
  id : ConnectionId
  entry : κ
  idleFor : Duration

namespace Supervisor

/-- The interval between sweeps is at least a millisecond. -/
def every (interval : Duration) : Supervisor κ :=
  ⟨if interval.nanos < 1000000 then .ofMillis 1 else interval, []⟩

/-- Sweeps four times a second. -/
def standard : Supervisor κ := every (.ofMillis 250)

/-- The rest of a sweeper between two sweeps: the interval, but no more than `Sweepers.longestRest`. -/
def rest (s : Supervisor κ) : Duration :=
  if s.interval.nanos ≤ Sweepers.longestRest.nanos then s.interval else Sweepers.longestRest

/-- Stops watching a connection. -/
def deregister (s : Supervisor κ) (id : ConnectionId) : Supervisor κ :=
  { s with entries := s.entries.filter fun e => e.1 ≠ id }

/-- Watches a connection; an earlier registration of the same one is replaced. -/
def register (s : Supervisor κ) (id : ConnectionId) (entry : κ) : Supervisor κ :=
  { s with entries := (s.deregister id).entries ++ [(id, entry)] }

/-- The first pass over some registrations: those that stay, those that expired, and the trackers
    afterwards.  `check` gives nothing for a tracker that is gone. -/
def collect (check : β → κ → Option (β × State)) (trackers : β) :
    List (ConnectionId × κ) → List (ConnectionId × κ) × List (Expiry κ) × β
  | [] => ([], [], trackers)
  | e :: es =>
    match check trackers e.2 with
    | none => collect check trackers es
    | some (trackers, state) =>
      let (kept, expired, trackers) := collect check trackers es
      match state with
      | .expired idleFor => (e :: kept, ⟨e.1, e.2, idleFor⟩ :: expired, trackers)
      | .disabled | .active _ | .closing => (e :: kept, expired, trackers)

/-- The first pass over all registrations. -/
def inspect (s : Supervisor κ) (check : β → κ → Option (β × State)) (trackers : β) :
    Supervisor κ × List (Expiry κ) × β :=
  let (kept, expired, trackers) := collect check trackers s.entries
  ({ s with entries := kept }, expired, trackers)

def describe (s : Supervisor κ) : String :=
  Describe.record "IdleSupervisor"
    [("connections", toString s.entries.length), ("interval", s.interval.text)]

end Supervisor

end WebSocketEngine.Idle
