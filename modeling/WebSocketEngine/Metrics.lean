/-!
Counters and one gauge.

A counter shows up in the report once it has been incremented, the gauge once it has been moved,
even if it is back at zero.
-/

namespace WebSocketEngine

/-- How often each label was counted, in order of first use. -/
abbrev Tally := List (String × Nat)

namespace Tally

def bump (label : String) : Tally → Tally
  | [] => [(label, 1)]
  | (l, n) :: t => if l = label then (l, n + 1) :: t else (l, n) :: bump label t

def count (label : String) (t : Tally) : Nat := (t.lookup label).getD 0

end Tally

/-- Something that is counted. -/
inductive Metric
  | connected
  | disconnected
  | inbound
  | outbound
  /-- A connection failed; the label is the kind of failure. -/
  | failed (label : String)
  | idleTimeout
  /-- An upgrade was attempted; the label is how it ended. -/
  | upgrade (label : String)

/-- All counts so far. -/
structure Metrics where
  /-- Open connections, once one has been opened or closed. -/
  connections : Option Int
  inbound : Nat
  outbound : Nat
  failures : Tally
  idleTimeouts : Nat
  upgrades : Tally

namespace Metrics

def zero : Metrics := ⟨none, 0, 0, [], 0, []⟩

def record (m : Metrics) : Metric → Metrics
  | .connected => { m with connections := some (m.connections.getD 0 + 1) }
  | .disconnected => { m with connections := some (m.connections.getD 0 - 1) }
  | .inbound => { m with inbound := m.inbound + 1 }
  | .outbound => { m with outbound := m.outbound + 1 }
  | .failed label => { m with failures := Tally.bump label m.failures }
  | .idleTimeout => { m with idleTimeouts := m.idleTimeouts + 1 }
  | .upgrade label => { m with upgrades := Tally.bump label m.upgrades }

/-! ### Report -/

/-- One line: the name, the label between braces and the count. -/
def row (name label : String) (count : Int) : String :=
  name ++ "\x7b" ++ label ++ "\x7d " ++ toString count

/-- A line for a counter that was incremented. -/
def counter (name label : String) (count : Nat) : List String :=
  if count = 0 then [] else [row name label count]

/-- The lines of everything that was touched. -/
def rows (m : Metrics) : List String :=
  m.connections.toList.map (row "wiresocket_connections_active" "")
    ++ m.failures.flatMap (fun t => counter "wiresocket_errors_total" ("kind=" ++ t.1) t.2)
    ++ counter "wiresocket_frames_processed_total" "direction=inbound" m.inbound
    ++ counter "wiresocket_frames_processed_total" "direction=outbound" m.outbound
    ++ counter "wiresocket_idle_timeouts_total" "" m.idleTimeouts
    ++ m.upgrades.flatMap (fun t => counter "wiresocket_upgrades_total" ("outcome=" ++ t.1) t.2)

/-- The lines in the order of their text. -/
def report (m : Metrics) : List String :=
  m.rows.mergeSort (fun a b => !(b < a))

end Metrics

end WebSocketEngine
