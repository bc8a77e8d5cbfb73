import WebSocketEngine.Completion.Token
import WebSocketEngine.Completion.Future
import WebSocketEngine.Panic
import WebSocketEngine.Text.Describe
import WebSocketEngine.Text.Quoted

/-!
Completions by name: tokens that are still held, the futures that watch channels, and the calls of
callbacks in the order in which they came.

A name stands for one token and one future at a time.  A token that loses its name to a new one is
dropped, and so counts as cancelled; a future that loses its name hears nothing any more.  A channel
has a number of its own for that, since its token may be held under another name by then.

One task polls all futures, in a single turn.  So it gets no more than `fullPatience` outcomes by
polling; those that it has looked at before, or looks at without waiting, cost nothing.
-/

namespace WebSocketEngine.Completion

/-- Who hears of an outcome: the future of a channel, a callback, or nobody. -/
inductive Listener
  | channel (number : Nat)
  | callback (name : String)
  | silent
  deriving DecidableEq

/-- A token as reports show it: a wrapped or shared token calls back into the one it came from. -/
def Token.describe (t : Token Listener) : String :=
  let target := match t with
    | .root (.channel _) => "channel"
    | .root .silent => "noop"
    | _ => "callback"
  Describe.record "Completion" [("target", Text.quoted target)]

/-- A future under its name, with the number of its channel. -/
structure Watcher where
  name : String
  number : Nat
  future : Future

structure Exchange where
  ledger : Ledger
  /-- Tokens nobody has resolved, in no particular order. -/
  tokens : List (String × Token Listener)
  watchers : List Watcher
  /-- Channels opened so far. -/
  channels : Nat
  /-- Calls of callbacks, the last one first. -/
  calls : List (String × Outcome)
  /-- How many outcomes polling may still take. -/
  patience : Nat

namespace Exchange

def empty : Exchange := ⟨.empty, [], [], 0, [], fullPatience⟩

/-! ### Outcomes -/

def token? (x : Exchange) (name : String) : Option (Token Listener) := x.tokens.lookup name

/-- Takes a token out of the exchange. -/
def release (x : Exchange) (name : String) : Exchange :=
  { x with tokens := x.tokens.filter fun t => t.1 != name }

/-- An outcome arrives. -/
def deliver (x : Exchange) : Option (Delivery Listener) → Exchange
  | none | some (.silent, _) => x
  | some (.callback name, o) => { x with calls := (name, o) :: x.calls }
  | some (.channel n, o) =>
    { x with watchers := x.watchers.map fun w =>
        if w.number = n then { w with future := w.future.deliver o } else w }

/-- Resolves or drops a held token. -/
def resolve (x : Exchange) (name : String) (how : Release) : Exchange :=
  match x.token? name with
  | none => x
  | some t =>
    let (l, d) := x.ledger.resolve t how.outcome
    { x.release name with ledger := l }.deliver d

/-! ### Tokens -/

/-- Holds a token under a name; a token that had the name before is dropped. -/
def hold (x : Exchange) (name : String) (t : Token Listener) : Exchange :=
  let x := x.resolve name .drop
  { x with tokens := (name, t) :: x.tokens }

def openCallback (x : Exchange) (name : String) : Exchange :=
  x.hold name (.root (.callback name))

def openSilent (x : Exchange) (name : String) : Exchange :=
  x.hold name (.root .silent)

/-- Wraps a token; the wrapper takes the place of the token. -/
def derive (x : Exchange) (name wrapper : String) : Exchange :=
  match x.token? name with
  | none => x
  | some t => (x.release name).hold wrapper (.derived t)

/-- What comes of asking for more parts than there is room for. -/
def tooManyParts : Panic := .text "capacity overflow"

/-- Shares a token out among parts `name.0`, `name.1`, …, if there is room for that many; also says
    how many there are. -/
def split (x : Exchange) (name : String) (count : Nat) : Except Panic (Exchange × Nat) :=
  match x.token? name with
  | none => .ok (x, 0)
  | some t =>
    if Ledger.maxParts < count then .error tooManyParts
    else
      let (l, parts, d) := x.ledger.split t count
      let y := { x.release name with ledger := l }.deliver d
      .ok (parts.zipIdx.foldl (fun y p => y.hold (name ++ "." ++ toString p.2) p.1) y, parts.length)

/-! ### Futures -/

/-- Stops watching a channel. -/
def dropFuture (x : Exchange) (name : String) : Exchange :=
  { x with watchers := x.watchers.filter (·.name != name) }

/-- A new token with a future that watches it. -/
def openChannel (x : Exchange) (name : String) : Exchange :=
  let x := (x.hold name (.root (.channel x.channels))).dropFuture name
  { x with watchers := ⟨name, x.channels, .fresh⟩ :: x.watchers, channels := x.channels + 1 }

def future? (x : Exchange) (name : String) : Option Future :=
  (x.watchers.find? (·.name == name)).map (·.future)

/-- Changes a future and gives what it answers. -/
def ask (x : Exchange) (name : String) (question : Future → Future × α) : Exchange × Option α :=
  match x.future? name with
  | none => (x, none)
  | some f =>
    let (future, a) := question f
    ({ x with watchers := x.watchers.map fun v =>
        if v.name = name then { v with future } else v }, some a)

/-- Polls a future.  To take an outcome costs patience; without patience the outcome stays where it
    is, as if it had not arrived. -/
def poll (x : Exchange) (name : String) : Exchange × Option Poll :=
  if !(x.future? name).any (·.isUnread) then x.ask name (·.poll)
  else if x.patience = 0 then (x, some .pending)
  else
    let y := { x with patience := x.patience - 1 }
    y.ask name (·.poll)

/-! ### Report -/

/-- The names of the tokens that are still held, in the order of their text. -/
def names (x : Exchange) : List String :=
  (x.tokens.map (·.1)).mergeSort fun a b => !(b < a)

end Exchange

end WebSocketEngine.Completion
