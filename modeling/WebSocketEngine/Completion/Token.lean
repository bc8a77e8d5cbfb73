import WebSocketEngine.Failure

/-!
Completion tokens.

A token stands for work that somebody waits for.  It is resolved once, with an outcome; dropping it
is resolving it as `cancelled`.  A token can be wrapped (`derived`) or shared out among several
parts: the parts together resolve it, when the last of them is resolved, with the first failure
among them if there is one.

    root sink ◀── derived
              ◀── part ── part ── …      remaining, first failure: kept in the ledger

Tokens say only where an outcome goes.  What a split still waits for is kept in a `Ledger`, by the
number of the split.
-/

namespace WebSocketEngine.Completion

/-- Where an outcome goes: straight to a sink, or on to another token. -/
inductive Token (σ : Type)
  | root (sink : σ)
  | derived (target : Token σ)
  | part (split : Nat) (target : Token σ)
  deriving DecidableEq

/-- How a holder lets go of a token. -/
inductive Release
  | resolve (outcome : Outcome)
  | drop

/-- A dropped token counts as cancelled. -/
def Release.outcome : Release → Outcome
  | resolve o => o
  | drop => .error .cancelled

/-- What a split knows of its parts. -/
structure Split where
  remaining : Nat
  failure : Option Failure
  deriving DecidableEq

namespace Split

/-- The split after one of its parts was resolved. -/
def record (s : Split) (o : Outcome) : Split where
  remaining := s.remaining - 1
  failure := s.failure <|> match o with
    | .ok _ => none
    | .error e => some e

/-- The outcome of the whole, by the failures so far. -/
def outcome (s : Split) : Outcome :=
  match s.failure with
  | some e => .error e
  | none => .ok ()

end Split

/-- The splits, by number. -/
structure Ledger where
  splits : List Split

/-- An outcome that has arrived at a sink. -/
abbrev Delivery (σ : Type) := σ × Outcome

namespace Ledger

def empty : Ledger := ⟨[]⟩

/-- The most parts that a token can be shared out among.  They lie side by side in one block of
    memory, in 24 bytes each, and a block is at most 9223372036854775800 bytes long. -/
def maxParts : Nat := 384307168202282325

/-- Notes the outcome of a part; gives the outcome of the whole if that was the last part. -/
def record (l : Ledger) (n : Nat) (o : Outcome) : Ledger × Option Outcome :=
  match l.splits[n]? with
  | none => (l, none)
  | some s =>
    let t := s.record o
    (⟨l.splits.set n t⟩, if s.remaining = 1 then some t.outcome else none)

/-- Resolves a token: at most one sink hears of it. -/
def resolve (l : Ledger) : Token σ → Outcome → Ledger × Option (Delivery σ)
  | .root s, o => (l, some (s, o))
  | .derived t, o => l.resolve t o
  | .part n t, o =>
    match l.record n o with
    | (l, none) => (l, none)
    | (l, some whole) => l.resolve t whole

/-- Shares a token out among `count` parts; without parts it is resolved at once. -/
def split (l : Ledger) (t : Token σ) (count : Nat) :
    Ledger × List (Token σ) × Option (Delivery σ) :=
  if count = 0 then
    let (l, d) := l.resolve t (.ok ())
    (l, [], d)
  else
    (⟨l.splits ++ [⟨count, none⟩]⟩, List.replicate count (.part l.splits.length t), none)

end Ledger

end WebSocketEngine.Completion
