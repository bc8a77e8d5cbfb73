import WebSocketEngine.Connection.Basic

/-!
The driver of a connection.

`turn` is one move of the driver, or nothing if it has to wait.  Every move brings the driver closer
to the point where it must wait: it uses up a frame, or goes on to a later phase of the same frame
(`rank_turn`).

The frames that a driver can take lie in `inbound`.  To take one asks nobody, so no signal comes
between the look at the signals and the frame (`receive`); a source of frames that itself aborts the
session or starts the shutdown while it is asked for one is left out.

Every way out of the driver passes through `leave` or `crash`.  Both free the connection's place
among the running ones; only `leave` also takes it off the supervisor.
-/

namespace WebSocketEngine.Connection

/-! ### Ways out -/

/-- Frees the place of the connection; nothing is read any more. -/
def release (c : Connection σ) (ending : Ending) : Connection σ :=
  let house := { c.host.house with running := c.host.house.running - 1 }
  let h := { c.host with house, parked := c.host.parked.erase .driver }.count .disconnected
  { c with
    host := h.log (releasedLine c.id house.running)
    inbound := []
    phase := .finished ending }

def leave (c : Connection σ) (ending : Ending) : Connection σ :=
  let c := if c.supervised then { c with supervisor := c.supervisor.deregister c.id } else c
  c.release ending

/-- The application crashed. -/
def crash (c : Connection σ) (p : Panic) : Connection σ :=
  let c := c.release (.crashed p)
  if c.detached then
    { c with host := (crashedLines c.id p).foldl Host.log (c.host.count (.failed "panic")) }
  else c

/-- Goes on after a callback, unless the callback crashed. -/
def unlessCrashed (c : Connection σ) (r : Host σ × Option Panic)
    (next : Connection σ → Connection σ) : Connection σ :=
  let c := { c with host := r.1 }
  match r.2 with
  | some p => c.crash p
  | none => next c

/-- Sends a CLOSE that nobody waits for, unless one was sent before. -/
def sendClose (h : Host σ) (code : CloseCode) (reason : String) : Host σ :=
  if h.session.closeSent then h else h.close code reason (.root .silent)

/-- The connection has closed in good order. -/
def finish (app : Application σ) (c : Connection σ) (code : CloseCode) : Connection σ :=
  let h := c.host.log (closedLine c.id code)
  c.unlessCrashed (h.closed app code) (·.leave (.closed code))

def fail (app : Application σ) (c : Connection σ) (e : Failure) : Connection σ :=
  let h := (c.host.log (failedLine c.id e)).count (.failed e.label)
  c.unlessCrashed (h.failed app e) fun c =>
    let h := sendClose c.host e.closeCode (CloseReason.ofFailure e)
    c.unlessCrashed (h.closed app e.closeCode) (·.leave (.failed e))

def shutdownReason : String := "server shutting down"

def finishShutdown (app : Application σ) (c : Connection σ) : Connection σ :=
  { c with host := sendClose c.host .goingAway shutdownReason }.finish app .goingAway

/-! ### From frame to frame -/

/-- Begins to read, and asks whether a unit of demand is needed. -/
def read (app : Application σ) (c : Connection σ) : Connection σ :=
  { c with phase := .reading (c.host.demanding app) }

/-- A new callback: the host that waits for its outcome, and its token. -/
def handOver (h : Host σ) : Host σ × Ticket :=
  ({ h with callbacks := h.callbacks + 1, verdict := none }, .root (.driver (h.callbacks + 1)))

/-- Counts the connection as running and opens the handler. -/
def enter (app : Application σ) (c : Connection σ) : Connection σ :=
  let house := { c.host.house with running := c.host.house.running + 1 }
  let h := { c.host with house }.count .connected
  let (h, t) := handOver (h.log (openedLine c.id house.running))
  c.unlessCrashed (h.opened app t) ({ · with phase := .opening })

/-- Hands a frame over. -/
def dispatch (app : Application σ) (c : Connection σ) (f : Frame) : Connection σ :=
  let (h, t) := handOver (c.host.touch.count .inbound)
  c.unlessCrashed (h.frame app f t) ({ · with phase := .serving f })

/-- Answers a PING, unless a CLOSE was sent before. -/
def sendPong (h : Host σ) (f : Frame) : Host σ :=
  if f.op = .ping && !h.session.closeSent then h.send (.pong f.payload) (.root .silent) false
  else h

/-- A frame was taken: a PING is answered, and a CLOSE is echoed and ends the connection. -/
def conclude (app : Application σ) (c : Connection σ) (f : Frame) : Connection σ :=
  match f.closeCode with
  | some code => { c with host := sendClose (sendPong c.host f) code "" }.finish app code
  | none => { c with host := sendPong c.host f }.read app

/-! ### Turns -/

/-- The outcome that the driver waits for, or what takes its place. -/
def awaited (h : Host σ) : Option Outcome :=
  match h.verdict, h.session.abortReason with
  | some o, _ => some o
  | none, some e => some (.error e)
  | none, none => if h.shutdown then some (.error .cancelled) else none

def withoutClose : Failure := .transport "peer closed without a CLOSE frame"

/-- Waits for the outcome of a callback.  To take one costs patience; a driver that has failed is on
    its way out and needs none. -/
def await (app : Application σ) (c : Connection σ) (next : Connection σ → Connection σ) :
    Option (Connection σ) :=
  match awaited c.host with
  | none => none
  | some (.ok _) => some (next { c with patience := c.patience - 1 })
  | some (.error e) => some (c.fail app e)

/-- Waits for a frame, and for a unit of demand before it. -/
def receive (app : Application σ) (c : Connection σ) (needsUnit : Bool) : Option (Connection σ) :=
  if c.host.shutdown then some (c.finishShutdown app)
  else
    match c.host.session.abortReason with
    | some e => some (c.fail app e)
    | none =>
      if needsUnit then
        c.host.session.take?.map fun session =>
          { c with host := { c.host with session }.note .took, phase := .reading false }
      else
        match c.inbound with
        | f :: rest => some ({ c with inbound := rest }.dispatch app f)
        | [] => if c.ended then some (c.fail app withoutClose) else none

def turn (app : Application σ) (c : Connection σ) : Option (Connection σ) :=
  match c.phase with
  | .idle | .finished _ => none
  | .starting => some (c.enter app)
  | .opening => c.await app (·.read app)
  | .serving f => c.await app (·.conclude app f)
  | .reading needsUnit => c.receive app needsUnit

/-! ### Every move is progress -/

/-- How far the driver is from the end of the frame it is at. -/
def Phase.rank : Phase → Nat
  | idle | finished _ => 0
  | reading false => 1
  | reading true => 2
  | opening | serving _ => 3
  | starting => 4

/-- How many moves the driver can make at most before something new happens. -/
def rank (c : Connection σ) : Nat := 4 * c.inbound.length + c.phase.rank

theorem rank_release (c : Connection σ) (e : Ending) : (c.release e).rank = 0 := rfl

theorem rank_leave (c : Connection σ) (e : Ending) : (c.leave e).rank = 0 := by
  simp [leave, rank_release]

theorem rank_crash (c : Connection σ) (p : Panic) : (c.crash p).rank = 0 := by
  simp only [crash]
  split <;> rfl

/-- After a callback the rank is that of a crash, or that of what comes next. -/
theorem rank_unlessCrashed (c : Connection σ) (r : Host σ × Option Panic)
    (next : Connection σ → Connection σ) (n : Nat)
    (h : (next { c with host := r.1 }).rank ≤ n) : (c.unlessCrashed r next).rank ≤ n := by
  unfold unlessCrashed
  split
  · rw [rank_crash]; exact Nat.zero_le n
  · exact h

theorem rank_finish (app : Application σ) (c : Connection σ) (code : CloseCode) :
    (c.finish app code).rank = 0 :=
  Nat.le_zero.mp (rank_unlessCrashed _ _ _ 0 (Nat.le_of_eq (rank_leave _ _)))

theorem rank_fail (app : Application σ) (c : Connection σ) (e : Failure) :
    (c.fail app e).rank = 0 :=
  Nat.le_zero.mp (rank_unlessCrashed _ _ _ 0
    (rank_unlessCrashed _ _ _ 0 (Nat.le_of_eq (rank_leave _ _))))

theorem rank_read (app : Application σ) (c : Connection σ) :
    (c.read app).rank ≤ 4 * c.inbound.length + 2 := by
  unfold read rank
  cases c.host.demanding app <;> simp [Phase.rank]

theorem rank_conclude (app : Application σ) (c : Connection σ) (f : Frame) :
    (c.conclude app f).rank ≤ 4 * c.inbound.length + 2 := by
  unfold conclude
  split
  · rw [rank_finish]; exact Nat.zero_le _
  · exact rank_read app _

theorem rank_await {app : Application σ} {c d : Connection σ}
    {next : Connection σ → Connection σ} {n : Nat} (turned : c.await app next = some d)
    (h : (next { c with patience := c.patience - 1 }).rank ≤ n) : d.rank ≤ n := by
  unfold await at turned
  split at turned
  · cases turned
  · cases turned; exact h
  · cases turned; rw [rank_fail]; exact Nat.zero_le n

theorem rank_receive {app : Application σ} {c d : Connection σ} {needsUnit : Bool}
    (turned : c.receive app needsUnit = some d) :
    d.rank < 4 * c.inbound.length + (Phase.reading needsUnit).rank := by
  have positive : 0 < (Phase.reading needsUnit).rank := by cases needsUnit <;> decide
  unfold receive at turned
  split at turned
  · cases turned
    rw [finishShutdown, rank_finish]
    omega
  · split at turned
    · cases turned
      rw [rank_fail]
      omega
    · split at turned
      · next needs =>
        obtain ⟨session, _, rfl⟩ := Option.map_eq_some_iff.mp turned
        subst needs
        simp [rank, Phase.rank]
      · next free =>
        have plain : needsUnit = false := by simpa using free
        subst plain
        split at turned
        · next f rest arrived =>
          cases turned
          have short : ({ c with inbound := rest }.dispatch app f).rank ≤ 4 * rest.length + 3 :=
            rank_unlessCrashed _ _ _ _ (by simp [rank, Phase.rank])
          simp [arrived, Phase.rank]
          omega
        · split at turned
          · cases turned
            rw [rank_fail]
            omega
          · cases turned

theorem rank_turn {app : Application σ} {c d : Connection σ} (turned : c.turn app = some d) :
    d.rank < c.rank := by
  unfold turn at turned
  split at turned
  · cases turned
  · cases turned
  · next starting =>
    cases turned
    have entered : (c.enter app).rank ≤ 4 * c.inbound.length + 3 :=
      rank_unlessCrashed _ _ _ _ (by simp [rank, Phase.rank])
    simp only [rank, starting, Phase.rank] at entered ⊢
    omega
  · next opening =>
    have := rank_await turned (rank_read app _)
    simp only [rank, opening, Phase.rank] at this ⊢
    omega
  · next f serving =>
    have := rank_await turned (rank_conclude app _ f)
    simp only [rank, serving, Phase.rank] at this ⊢
    omega
  · next needsUnit reading =>
    have := rank_receive turned
    simpa only [rank, reading] using this

end WebSocketEngine.Connection
