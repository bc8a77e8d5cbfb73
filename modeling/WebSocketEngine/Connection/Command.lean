import WebSocketEngine.Connection.Settle

/-!
What can be done to a connection from outside.

A command takes effect at once; the tasks that it lets go on have their turns afterwards, and then
the writer fetches what is in the outbox (`run`).  Work that a caller waits for is numbered, in the
order of the calls.

    outbox ── fetch ──▶ fetched ── write ──▶ resolved or dropped
       └───────┬───────────┘
          dropWriter ──▶ dropped
-/

namespace WebSocketEngine.Connection

inductive Command
  -- On the session.
  | send (frame : Frame) (batch : Bool)
  | sendMessage (kind : MessageKind) (chunks : List Bytes) (batch : Bool)
  | close (code : CloseCode) (reason : String)
  | demand (n : UInt64)
  /-- Takes a unit of demand, if there is one. -/
  | takeDemand
  /-- Begins to wait for a unit of demand. -/
  | waitForDemand
  | abort (e : Failure)
  | setIdleTimeout (d : Duration)
  | change (c : Config.Change)
  | checkIdle
  | touch
  /-- Lets time pass. -/
  | wait (d : Duration)
  -- In the place of the writer.
  /-- Deals with the oldest frame that was fetched. -/
  | write (how : Completion.Release)
  /-- Goes away, and drops what is left in the outbox and of the fetched frames. -/
  | dropWriter
  -- In the place of the application.
  /-- Lets go of a token that was kept for later. -/
  | releaseHeld (index : Nat) (how : Completion.Release)
  -- At the handler.
  | handOpening
  | handFrame (frame : Frame)
  | handFailure (e : Failure)
  | handClosed (code : CloseCode)
  /-- Sends through the session that the handler was opened with. -/
  | handlerSend (kind : MessageKind) (chunks : List Bytes) (batch : Bool)
  -- On the driver and its surroundings.
  | start (detached : Bool)
  /-- Frames arrive. -/
  | arrive (frames : List Frame)
  /-- No more frames will arrive. -/
  | endInbound
  | shutdown
  | sweep
  /-- Sweeps now, and from now on by itself. -/
  | startSweeping

/-- What a command gives back. -/
inductive Answer
  | nothing
  | flag (b : Bool)
  | count (n : Nat)
  | idle (s : Idle.State)
  | timeout (d : Duration)
  /-- No fetched frame is left. -/
  | empty
  /-- No token of that index is kept. -/
  | noneHeld
  /-- The application crashed. -/
  | crashed (p : Panic)

/-- Starts a piece of work that a caller waits for. -/
def tracked (c : Connection σ) (f : Host σ → Ticket → Host σ) : Connection σ × Answer :=
  ({ c with host := f c.host (.root (.caller c.callers)), callers := c.callers + 1 }, .nothing)

/-- A piece of work at the handler, which may crash the application. -/
def trackedEvent (c : Connection σ) (f : Host σ → Ticket → Host σ × Option Panic) :
    Connection σ × Answer :=
  let (host, p) := f c.host (.root (.caller c.callers))
  ({ c with host, callers := c.callers + 1 }, p.elim .nothing .crashed)

/-- An event at the handler. -/
def event (c : Connection σ) (r : Host σ × Option Panic) : Connection σ × Answer :=
  ({ c with host := r.1 }, r.2.elim .nothing .crashed)

/-- Changes only the host. -/
def onHost (c : Connection σ) (f : Host σ → Host σ) : Connection σ × Answer :=
  ({ c with host := f c.host }, .nothing)

/-! ### The writer and the held tokens -/

/-- The writer takes over what is in the outbox. -/
def fetch (c : Connection σ) : Connection σ :=
  match c.host.session.outbox with
  | none => c
  | some queue =>
    let session := { c.host.session with outbox := some [] }
    { c with
      host := queue.foldl (fun h o => h.note (.fetched o.frame o.batch)) { c.host with session }
      fetched := c.fetched ++ queue }

def write (c : Connection σ) (how : Completion.Release) : Connection σ × Answer :=
  match c.fetched with
  | o :: rest => onHost { c with fetched := rest } (·.resolve o.ticket how.outcome)
  | [] => (c, .empty)

def dropWriter (c : Connection σ) : Connection σ × Answer :=
  let left := c.host.session.outbox.getD [] ++ c.fetched
  let session := { c.host.session with outbox := none }
  onHost { c with fetched := [] } fun h => left.foldl (fun h o => h.drop o.ticket) { h with session }

def releaseHeld (c : Connection σ) (index : Nat) (how : Completion.Release) :
    Connection σ × Answer :=
  match c.host.held[index]? with
  | none => (c, .noneHeld)
  | some t => c.onHost fun h => { h with held := h.held.eraseIdx index }.resolve t how.outcome

/-! ### The driver -/

/-- Starts the driver, once. -/
def start (c : Connection σ) (detached : Bool) : Connection σ :=
  match c.phase with
  | .idle => { c with phase := .starting, detached, host := c.host.wake .driver }
  | .starting | .opening | .reading _ | .serving _ | .finished _ => c

/-- Frames arrive, unless the connection is over or no more frames were to come; the flag says
    whether they can still be read.  There is nothing to say of no frames. -/
def arrive (c : Connection σ) (frames : List Frame) : Connection σ × Answer :=
  if frames.isEmpty then (c, .nothing)
  else
    match c.phase with
    | .finished _ => (c, .flag false)
    | .idle | .starting | .opening | .reading _ | .serving _ =>
      if c.ended then (c, .flag false)
      else
        ({ c with inbound := c.inbound ++ frames, host := c.host.wake .driver }, .flag true)

/-! ### Time -/

/-- Sweeps at once, and from now on by itself. -/
def startSweeping (c : Connection σ) : Connection σ :=
  let (c, _) := c.sweep
  { c with sweepers := c.sweepers.start c.supervisor.rest c.host.now }

/-- The sweep that falls due at `now`, and the turns after it. -/
def tick (app : Application σ) (c : Connection σ) (now : Instant) : Connection σ :=
  let (c, _) := { c with host := { c.host with now } }.sweep
  { c with sweepers := c.sweepers.swept c.supervisor.rest now }.settle app

/-- The next `count` sweeps that fall due. -/
def ticks (app : Application σ) : Nat → Connection σ → Connection σ
  | 0, c => c
  | count + 1, c =>
    match c.sweepers.next? with
    | some next => ticks app count (c.tick app next)
    | none => c

/-- Lets time pass. -/
def wait (app : Application σ) (c : Connection σ) (d : Duration) : Connection σ :=
  let limit := c.host.now + d.nanos
  let c := ticks app (c.sweepers.dueUntil c.supervisor.rest limit) c
  { c with host := { c.host with now := limit } }

/-! ### Commands -/

/-- The effect of a command, before any task has its turn. -/
def act (app : Application σ) (c : Connection σ) : Command → Connection σ × Answer
  | .send f batch => c.tracked (·.send f · batch)
  | .sendMessage kind chunks batch => c.tracked (·.sendMessage kind chunks · batch)
  | .close code reason => c.tracked (·.close code reason ·)
  | .demand n => c.onHost (·.grant n)
  | .takeDemand =>
    match c.host.session.take? with
    | some session => ({ c with host := { c.host with session } }, .flag true)
    | none => (c, .flag false)
  | .waitForDemand =>
    ({ c with host := c.host.wake (.waiter c.waiters), waiters := c.waiters + 1 }, .nothing)
  | .abort e => c.onHost (·.abort e)
  | .setIdleTimeout d =>
    let (c, _) := c.onHost (·.configure (·.setIdleTimeout d))
    (c, .timeout c.host.session.config.idleTimeout)
  | .change x => c.onHost (·.configure (·.apply x))
  | .checkIdle =>
    let (host, state) := c.host.checkIdle
    ({ c with host }, .idle state)
  | .touch => c.onHost (·.touch)
  | .wait d => (c.wait app d, .nothing)
  | .write how => c.write how
  | .dropWriter => c.dropWriter
  | .releaseHeld index how => c.releaseHeld index how
  | .handOpening => c.trackedEvent (·.opened app ·)
  | .handFrame f => c.trackedEvent (·.frame app f ·)
  | .handFailure e => c.event (c.host.failed app e)
  | .handClosed code => c.event (c.host.closed app code)
  | .handlerSend kind chunks batch =>
    c.tracked fun h t =>
      if h.attached then h.sendMessage kind chunks t batch
      else h.resolve t (.error Session.notOpen)
  | .start detached => (c.start detached, .nothing)
  | .arrive frames => c.arrive frames
  | .endInbound => ({ c with ended := true, host := c.host.wake .driver }, .nothing)
  | .shutdown => c.onHost (·.stop)
  | .sweep =>
    let (c, n) := c.sweep
    (c, .count n)
  | .startSweeping => (c.startSweeping, .nothing)

/-- The effect of a command, and of all that it lets happen. -/
def run (app : Application σ) (c : Connection σ) (x : Command) : Connection σ × Answer :=
  let (c, a) := c.act app x
  ((c.settle app).fetch, a)

end WebSocketEngine.Connection
