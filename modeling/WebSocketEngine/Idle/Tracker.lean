import WebSocketEngine.Duration

/-!
When a connection was last active, and whether it has been idle for too long.

Activity is kept in whole milliseconds since the tracker began, as many as 64 bits hold, and never
moves back.  Expiry is judged only when somebody asks, against the timeout in force at that moment;
it is reported once, until the tracker is reset.

    check   reported before ──▶ closing
            timeout zero    ──▶ disabled
            idle < timeout  ──▶ active
            otherwise       ──▶ expired, and from now on reported
-/

namespace WebSocketEngine.Idle

/-- The answer to a check. -/
inductive State
  /-- The timeout is zero. -/
  | disabled
  /-- Active lately; cannot expire before `remaining` has passed. -/
  | active (remaining : Duration)
  /-- Expired just now. -/
  | expired (idleFor : Duration)
  /-- Its expiry was reported before. -/
  | closing
  deriving DecidableEq

structure Tracker where
  /-- When the tracker began. -/
  origin : Instant
  /-- The last activity, in whole milliseconds after the beginning. -/
  lastMillis : Nat
  /-- Expiry has been reported. -/
  expired : Bool
  deriving DecidableEq

namespace Tracker

/-- A tracker that begins now, with its first activity. -/
def start (now : Instant) : Tracker := ⟨now, 0, false⟩

/-- An instant in whole milliseconds after the beginning; what comes later than can be counted
    counts as the last one that can. -/
def offset (t : Tracker) (now : Instant) : Nat := min (Duration.between t.origin now).millis maxMillis

def touch (t : Tracker) (now : Instant) : Tracker :=
  { t with lastMillis := max t.lastMillis (t.offset now) }

def lastActivity (t : Tracker) : Instant := t.origin + (Duration.ofMillis t.lastMillis).nanos

/-- How long the tracker has been without activity. -/
def idleFor (t : Tracker) (now : Instant) : Duration := .between t.lastActivity now

def check (t : Tracker) (timeout : Duration) (now : Instant) : Tracker × State :=
  if t.expired then (t, .closing)
  else if timeout = .zero then (t, .disabled)
  else if (t.idleFor now).nanos < timeout.nanos then
    (t, .active ⟨timeout.nanos - (t.idleFor now).nanos⟩)
  else ({ t with expired := true }, .expired (t.idleFor now))

/-- Arms the tracker again; that counts as activity. -/
def reset (t : Tracker) (now : Instant) : Tracker := { t.touch now with expired := false }

end Tracker

end WebSocketEngine.Idle
