import WebSocketEngine.Failure

/-!
Watching a completion from the other side.

The outcome arrives in an inbox that can be emptied once; the future keeps what it took, so that it
gives the same answer ever after.  Reading an emptied inbox again would be a mistake, which polling
reports as `misuse`.

A task gives way to the others when it has taken `fullPatience` outcomes in one turn.
-/

namespace WebSocketEngine.Completion

/-- How many outcomes a task may take in one turn. -/
def fullPatience : Nat := 128

inductive Inbox
  | empty
  | full (outcome : Outcome)
  | spent

structure Future where
  inbox : Inbox
  seen : Option Outcome

/-- What polling a future gives. -/
inductive Poll
  | ready (outcome : Outcome)
  | pending
  | misuse

namespace Future

def fresh : Future := ⟨.empty, none⟩

/-- The outcome comes in; only the first one is kept. -/
def deliver (f : Future) (o : Outcome) : Future :=
  match f.inbox with
  | .empty => { f with inbox := .full o }
  | .full _ | .spent => f

/-- The outcome, if there is one. -/
def tryOutcome (f : Future) : Future × Option Outcome :=
  match f.seen, f.inbox with
  | some o, _ => (f, some o)
  | none, .empty => (f, none)
  | none, .full o => (⟨.spent, some o⟩, some o)
  | none, .spent => (⟨.spent, some (.error .cancelled)⟩, some (.error .cancelled))

def isDone (f : Future) : Future × Bool :=
  let (f, o) := f.tryOutcome
  (f, o.isSome)

/-- The outcome has arrived, and nobody has taken it. -/
def isUnread (f : Future) : Bool :=
  match f.seen, f.inbox with
  | none, .full _ => true
  | _, _ => false

/-- Asks once as a task would that waits for the outcome. -/
def poll (f : Future) : Future × Poll :=
  match f.seen, f.inbox with
  | some o, _ => (f, .ready o)
  | none, .empty => (f, .pending)
  | none, .full o => (⟨.spent, some o⟩, .ready o)
  | none, .spent => (f, .misuse)

end Future

end WebSocketEngine.Completion
