import WebSocketEngine.Application.Basic
import WebSocketEngine.Assembly.Assembler
import WebSocketEngine.Assembly.Fragments
import WebSocketEngine.Metrics
import WebSocketEngine.Session

/-!
A session together with the application that it serves.

Nothing here waits: a task that has to wait for demand is parked, and whatever may let a task go on
puts it at the end of the ready queue.  A task stands in that queue once at most.

    grant           every parked task becomes ready, in the order of parking
    an outcome      settles a caller's work, or makes the driver ready
    abort, shutdown make the driver ready
-/

namespace WebSocketEngine

/-- Something that runs until it has to wait. -/
inductive Task
  /-- The driver of the connection. -/
  | driver
  /-- Somebody who wants one unit of demand, by number. -/
  | waiter (number : Nat)
  deriving DecidableEq

/-- Who takes the frames of a session. -/
inductive Handler
  /-- An assembler, which passes whole messages on to the application. -/
  | assembling (a : Assembly.Assembler)
  /-- The application itself. -/
  | direct
  deriving DecidableEq

/-- One entry of the record of what happened. -/
inductive Note
  /-- The handler was given an event. -/
  | handed (event : Call)
  /-- The application was called. -/
  | called (event : Call)
  /-- A frame was accepted for sending. -/
  | accepted (frame : Frame) (batch : Bool)
  /-- The writer has fetched a frame. -/
  | fetched (frame : Frame) (batch : Bool)
  /-- The work that a caller waits for has its outcome. -/
  | settled (caller : Nat) (outcome : Outcome)
  /-- A waiter has its unit of demand. -/
  | served (waiter : Nat)
  /-- The driver has taken a unit of demand. -/
  | took
  | logged (line : Log.Line)
  deriving DecidableEq

/-- What all connections of a program count together. -/
structure House where
  /-- Connections that run. -/
  running : Nat
  metrics : Metrics

/-- A house in which nothing has run. -/
def House.empty : House := ⟨0, .zero⟩

/-- The application's memory has type `σ`. -/
structure Host (σ : Type) where
  now : Instant
  session : Session
  ledger : Completion.Ledger
  memory : σ
  /-- Tokens that the application keeps for later, the oldest one first. -/
  held : List Ticket
  handler : Handler
  /-- Tasks that wait for demand, in the order in which they began to. -/
  parked : List Task
  /-- Tasks that can go on, in the order of their turns. -/
  ready : List Task
  /-- A shutdown was asked for. -/
  shutdown : Bool
  /-- How many callbacks the driver has handed over; the last one has this number. -/
  callbacks : Nat
  /-- The outcome of the driver's last callback. -/
  verdict : Option Outcome
  house : House
  /-- What happened, the last entry first. -/
  journal : List Note

namespace Host

/-! ### The record -/

def note (h : Host σ) (n : Note) : Host σ := { h with journal := n :: h.journal }

def log (h : Host σ) (l : Log.Line) : Host σ := h.note (.logged l)

def count (h : Host σ) (m : Metric) : Host σ :=
  { h with house := { h.house with metrics := h.house.metrics.record m } }

/-! ### Tasks -/

/-- Adds a task to a queue in which it does not stand yet. -/
def enqueue (queue : List Task) (t : Task) : List Task :=
  if t ∈ queue then queue else queue ++ [t]

def wake (h : Host σ) (t : Task) : Host σ := { h with ready := enqueue h.ready t }

def park (h : Host σ) (t : Task) : Host σ := { h with parked := enqueue h.parked t }

/-- More demand; everybody who waits for it may try again. -/
def grant (h : Host σ) (n : UInt64) : Host σ :=
  { h with
    session := h.session.grant n
    parked := []
    ready := h.parked.foldl enqueue h.ready }

/-! ### Outcomes -/

def deliver (h : Host σ) : Option (Completion.Delivery Sink) → Host σ
  | none | some (.silent, _) => h
  | some (.caller n, o) => h.note (.settled n o)
  | some (.driver n, o) =>
    if n = h.callbacks then { h with verdict := some o }.wake .driver else h

/-- Resolves a token, and tells whoever waits for it. -/
def resolve (h : Host σ) (t : Ticket) (o : Outcome) : Host σ :=
  let (ledger, d) := h.ledger.resolve t o
  { h with ledger }.deliver d

/-- Lets go of a token. -/
def drop (h : Host σ) (t : Ticket) : Host σ := h.resolve t Completion.Release.drop.outcome

/-! ### Sending -/

/-- Offers a frame to the writer.  A refusal resolves the token at once. -/
def send (h : Host σ) (f : Frame) (t : Ticket) (batch : Bool) : Host σ :=
  let (session, refusal) := h.session.offer h.now ⟨f, t, batch⟩
  let h := { h with session }
  match refusal with
  | none => (h.count .outbound).note (.accepted f batch)
  | some e => h.resolve t (.error e)

def close (h : Host σ) (code : CloseCode) (reason : String) (t : Ticket) : Host σ :=
  h.send (.close code reason) t false

/-- Sends a message, one frame for each chunk; the token is shared out among the frames. -/
def sendMessage (h : Host σ) (kind : MessageKind) (chunks : List Bytes) (t : Ticket)
    (batch : Bool) : Host σ :=
  let frames := Assembly.fragments kind chunks
  let (ledger, parts, d) := h.ledger.split t frames.length
  (frames.zip parts).foldl (fun h p => h.send p.1 p.2 (batch || !p.1.fin))
    ({ h with ledger }.deliver d)

/-! ### The end of a session -/

def abortedLine (id : ConnectionId) (e : Failure) : Log.Line :=
  ⟨.debug, "session aborted: id=" ++ id.text ++ ", error=" ++ e.message⟩

/-- Fails the session from outside.  Only the first reason counts. -/
def abort (h : Host σ) (e : Failure) : Host σ :=
  match h.session.abortReason with
  | some _ => h
  | none =>
    let h := h.log (abortedLine h.session.id e)
    { h with session := { h.session with abortReason := some e } }.wake .driver

def stop (h : Host σ) : Host σ := { h with shutdown := true }.wake .driver

/-! ### Configuration and activity -/

def configure (h : Host σ) (f : Config → Config) : Host σ :=
  { h with session := { h.session with config := f h.session.config } }

def touch (h : Host σ) : Host σ :=
  { h with session := { h.session with tracker := h.session.tracker.touch h.now } }

/-- Asks whether the session has been idle for too long. -/
def checkIdle (h : Host σ) : Host σ × Idle.State :=
  let (tracker, state) := h.session.tracker.check h.session.config.idleTimeout h.now
  ({ h with session := { h.session with tracker } }, state)

/-! ### The application -/

/-- The token of work that somebody may wait for. -/
def ticketFor : Option Nat → Ticket
  | some n => .root (.caller n)
  | none => .root .silent

def perform (h : Host σ) : Act → Host σ
  | .change c => h.configure (·.apply c)
  | .setIdleTimeout d => h.configure (·.setIdleTimeout d)
  | .demand n => h.grant n
  | .send f batch caller => h.send f (ticketFor caller) batch
  | .sendMessage kind chunks batch caller => h.sendMessage kind chunks (ticketFor caller) batch
  | .abort e => h.abort e
  | .shutdown => h.stop

/-- Calls the application and does what it asks for. -/
def call (app : Application σ) (h : Host σ) (c : Call) : Host σ × Reply :=
  let (memory, r) := app.react h.memory c
  (r.acts.foldl perform ({ h with memory }.note (.called c)), r.reply)

/-- Lets the application's reply decide a token; gives its crash, if it crashed. -/
def answer (h : Host σ) (t : Ticket) : Reply → Host σ × Option Panic
  | .succeed => (h.resolve t (.ok ()), none)
  | .fail e => (h.resolve t (.error e), none)
  | .drop => (h.drop t, none)
  | .hold => ({ h with held := h.held ++ [t] }, none)
  | .panic p => (h.drop t, some p)

end Host

end WebSocketEngine
