import WebSocketEngine.Config.Basic
import WebSocketEngine.Idle.Report
import WebSocketEngine.Idle.Supervisor
import WebSocketEngine.Idle.Sweepers
import WebSocketEngine.Metrics

/-!
Named trackers, each with a configuration of its own, under one supervisor and one clock.

A registration holds on to the tracker that its name led to when it was made; once that tracker is
dropped, or its name is given to a new one, the registration is dead and the next sweep drops it.
-/

namespace WebSocketEngine.Idle

/-- What a registration does when its tracker expires, besides being reported. -/
inductive Reaction
  | nothing
  /-- Arms the tracker again. -/
  | reset
  /-- Takes a registration out. -/
  | deregister (id : ConnectionId)

/-- A tracker under its name. -/
structure Tracked where
  number : Nat
  name : String
  config : Config
  tracker : Tracker

/-- What a registration watches, by number, and how it reacts. -/
structure Registration where
  number : Nat
  reaction : Reaction

structure Watch where
  now : Instant
  trackers : List Tracked
  /-- Trackers made so far. -/
  made : Nat
  supervisor : Supervisor Registration
  sweepers : Sweepers
  metrics : Metrics
  /-- Notifications so far, the last one first. -/
  fired : List (ConnectionId × Duration)
  /-- Log lines so far, the last one first. -/
  lines : List Log.Line

namespace Watch

def start (supervisor : Supervisor Registration) : Watch :=
  ⟨0, [], 0, supervisor, .none, .zero, [], []⟩

def find? (w : Watch) (name : String) : Option Tracked := w.trackers.find? (·.name == name)

/-- Changes the tracker of a name. -/
def modify (w : Watch) (name : String) (f : Tracked → Tracked) : Watch :=
  { w with trackers := w.trackers.map fun t => if t.name = name then f t else t }

/-! ### Trackers -/

def drop (w : Watch) (name : String) : Watch :=
  { w with trackers := w.trackers.filter (·.name != name) }

/-- A new tracker, with a timeout of its own. -/
def create (w : Watch) (name : String) (timeout : Duration) : Watch :=
  let t := ⟨w.made, name, Config.standard.setIdleTimeout timeout, .start w.now⟩
  { w with trackers := (w.drop name).trackers ++ [t], made := w.made + 1 }

def setTimeout (w : Watch) (name : String) (timeout : Duration) : Watch :=
  w.modify name fun t => { t with config := t.config.setIdleTimeout timeout }

def touch (w : Watch) (name : String) (now : Instant) : Watch :=
  w.modify name fun t => { t with tracker := t.tracker.touch now }

def reset (w : Watch) (name : String) : Watch :=
  w.modify name fun t => { t with tracker := t.tracker.reset w.now }

def check (w : Watch) (name : String) (now : Instant) : Watch × Option State :=
  match w.find? name with
  | none => (w, none)
  | some t =>
    let (tracker, state) := t.tracker.check t.config.idleTimeout now
    (w.modify name fun t => { t with tracker }, some state)

/-! ### Registrations and sweeps -/

def register (w : Watch) (id : ConnectionId) (name : String) (reaction : Reaction) : Watch :=
  match w.find? name with
  | none => w
  | some t => { w with supervisor := w.supervisor.register id ⟨t.number, reaction⟩ }

def deregister (w : Watch) (id : ConnectionId) : Watch :=
  { w with supervisor := w.supervisor.deregister id }

/-- Checks the tracker of a registration among the living ones. -/
def checkNumber (now : Instant) (trackers : List Tracked) (r : Registration) :
    Option (List Tracked × State) :=
  match trackers.find? (·.number == r.number) with
  | none => none
  | some t =>
    let (tracker, state) := t.tracker.check t.config.idleTimeout now
    some (trackers.map fun u => if u.number = r.number then { u with tracker } else u, state)

/-- Tells one registration that its tracker has expired. -/
def notify (w : Watch) (e : Expiry Registration) : Watch :=
  let w := { w with
    metrics := w.metrics.record .idleTimeout
    fired := (e.id, e.idleFor) :: w.fired
    lines := expiryLine e.id e.idleFor :: w.lines }
  match e.entry.reaction with
  | .nothing => w
  | .reset =>
    { w with trackers := w.trackers.map fun t =>
        if t.number = e.entry.number then { t with tracker := t.tracker.reset w.now } else t }
  | .deregister id => w.deregister id

/-- One sweep, as if it were `now`; also says how many expired. -/
def sweepAt (w : Watch) (now : Instant) : Watch × Nat :=
  let (supervisor, expired, trackers) := w.supervisor.inspect (checkNumber now) w.trackers
  (expired.foldl notify { w with supervisor, trackers }, expired.length)

def sweep (w : Watch) : Watch × Nat := w.sweepAt w.now

/-! ### Time -/

/-- Sweeps at once, and from now on by itself, unless sweeping was stopped before. -/
def startSweeping (w : Watch) : Watch :=
  let swept := if w.sweepers.stopped then w else w.sweep.1
  { swept with sweepers := w.sweepers.start w.supervisor.rest w.now }

def stopSweeping (w : Watch) : Watch := { w with sweepers := w.sweepers.stop }

/-- The sweep that falls due at `now`. -/
def tick (w : Watch) (now : Instant) : Watch :=
  let (w, _) := { w with now }.sweep
  { w with sweepers := w.sweepers.swept w.supervisor.rest now }

/-- The next `count` sweeps that fall due. -/
def ticks : Nat → Watch → Watch
  | 0, w => w
  | count + 1, w =>
    match w.sweepers.next? with
    | some next => ticks count (w.tick next)
    | none => w

/-- Lets time pass. -/
def wait (w : Watch) (d : Duration) : Watch :=
  let limit := w.now + d.nanos
  { ticks (w.sweepers.dueUntil w.supervisor.rest limit) w with now := limit }

end Watch

end WebSocketEngine.Idle
