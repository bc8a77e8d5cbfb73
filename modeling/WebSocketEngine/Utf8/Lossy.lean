import WebSocketEngine.Utf8.Sequence

/-!
Reading bytes as text when they need not be UTF-8.

Each maximal part that starts a character and cannot be finished becomes one U+FFFD, and so does
each byte that starts none; the byte that broke a character is read again as the start of the next.
-/

namespace WebSocketEngine.Utf8

/-- The replacement character, U+FFFD. -/
def replacement : Char := Char.ofNat 0xFFFD

/-- The bits of the code point that a lead byte carries, `owed` being the bytes it wants. -/
def leadBits (owed : Nat) (b : UInt8) : Nat :=
  match owed with
  | 0 => b.toNat
  | 1 => b.toNat % 32
  | 2 => b.toNat % 16
  | _ => b.toNat % 8

/-- The character in hand: what it still wants, and the bits of its code point so far. -/
structure Lossy where
  part : Partial
  bits : Nat

namespace Lossy

/-- Reads `b` as the first byte of a character; `out` is the text so far, last character first. -/
def start (b : UInt8) (out : List Char) : Lossy × List Char :=
  match Partial.lead b with
  | none => (⟨.boundary, 0⟩, replacement :: out)
  | some p =>
    let bits := leadBits p.owed b
    if p.isBoundary then (⟨p, 0⟩, Char.ofNat bits :: out) else (⟨p, bits⟩, out)

/-- Reads one more byte. -/
def step (s : Lossy × List Char) (b : UInt8) : Lossy × List Char :=
  match s with
  | (⟨p, bits⟩, out) =>
    if p.isBoundary then start b out
    else
      match p.step b with
      | none => start b (replacement :: out)
      | some q =>
        let bits := bits * 64 + b.toNat % 64
        if q.isBoundary then (⟨q, 0⟩, Char.ofNat bits :: out) else (⟨q, bits⟩, out)

end Lossy

/-- The text of a byte string, with U+FFFD for each part that is no UTF-8. -/
def decodeLossy (bs : Bytes) : String :=
  let (s, out) := bs.foldl Lossy.step (⟨.boundary, 0⟩, [])
  String.ofList (if s.part.isBoundary then out else replacement :: out).reverse

end WebSocketEngine.Utf8
