import WebSocketEngine.Utf8.Sequence
import WebSocketEngine.Text.Describe

/-!
UTF-8 validation of a message that arrives in chunks.

A chunk first pays off the character that the chunks before it left open, byte by byte.  The rest is
judged at once: a fault inside it is reported at the start of the character that breaks, and a
character cut off by the end of the chunk is carried into the next one.

    feed    open character ──▶ rest of the chunk ──▶ open character
    finish  an open character is an error; either way the validator starts afresh
-/

namespace WebSocketEngine.Utf8

/-- Why a message is no UTF-8. -/
inductive Refusal
  /-- The byte at this offset of the message cannot stand there. -/
  | invalid (offset : Nat)
  /-- The message ended inside a character. -/
  | incomplete
  deriving DecidableEq

def Refusal.message : Refusal → String
  | invalid offset => "invalid UTF-8 byte at message offset " ++ toString offset
  | incomplete => "message ends with a truncated UTF-8 sequence"

/-- What the chunks so far leave behind. -/
structure Validator where
  /-- The character that is still open. -/
  part : Partial
  /-- The bytes of the chunks that were accepted. -/
  consumed : Nat
  deriving DecidableEq

namespace Validator

def fresh : Validator := ⟨.boundary, 0⟩

/-- No character is open. -/
def isComplete (v : Validator) : Bool := v.part.isBoundary

/-- Pays off the open character.  Gives what it still wants, the bytes that are left, and how many
    were used; on a byte that cannot stand there, its index and the debt at that point. -/
def settle (p : Partial) (index : Nat) : Bytes → Except (Nat × Partial) (Partial × Bytes × Nat)
  | [] => .ok (p, [], index)
  | b :: bs =>
    if p.isBoundary then .ok (p, b :: bs, index)
    else
      match p.step b with
      | none => .error (index, p)
      | some q => settle q (index + 1) bs

/-- The debt after a run of bytes; on a byte that cannot stand there, its index and the debt at that
    point. -/
def carry (p : Partial) (index : Nat) : Bytes → Except (Nat × Partial) Partial
  | [] => .ok p
  | b :: bs =>
    match p.step b with
    | none => .error (index, p)
    | some q => carry q (index + 1) bs

/-- Takes the next chunk.  The validator that comes back with a refusal is the one that goes on if
    the caller feeds it more. -/
def feed (v : Validator) (chunk : Bytes) : Validator × Except Refusal Unit :=
  match settle v.part 0 chunk with
  | .error (index, p) => ({ v with part := p }, .error (.invalid (v.consumed + index)))
  | .ok (p, rest, index) =>
    match fault? rest with
    | none => (⟨p, v.consumed + chunk.length⟩, .ok ())
    | some (.malformed start _) =>
      ({ v with part := p }, .error (.invalid (v.consumed + index + start)))
    | some (.cut start) =>
      match carry p (index + start) (rest.drop start) with
      | .ok q => (⟨q, v.consumed + chunk.length⟩, .ok ())
      | .error (i, q) => ({ v with part := q }, .error (.invalid (v.consumed + i)))

/-- Ends the message. -/
def finish (v : Validator) : Validator × Except Refusal Unit :=
  (fresh, if v.isComplete then .ok () else .error .incomplete)

def describe (v : Validator) : String :=
  Describe.record "Utf8Validator"
    [("pending", toString v.part.owed), ("lower", toString v.part.lower.toNat),
      ("upper", toString v.part.upper.toNat), ("consumed", toString v.consumed)]

end Validator

end WebSocketEngine.Utf8
