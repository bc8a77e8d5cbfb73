/-!
UTF-8 one byte at a time.

A lead byte says how many continuation bytes it still wants and in which range the next one must
lie; that range is what rules out overlong forms, surrogates and code points above U+10FFFF.
`Partial` is such a debt, `Partial.step` pays one byte of it or opens the next one.

    lead      wants   next byte
    00–7F       0
    C2–DF       1     80–BF
    E0          2     A0–BF
    E1–EC       2     80–BF
    ED          2     80–9F
    EE–EF       2     80–BF
    F0          3     90–BF
    F1–F3       3     80–BF
    F4          3     80–8F
-/

namespace WebSocketEngine

/-- The payload of a frame or message. -/
abbrev Bytes := List UInt8

namespace Utf8

/-- Continuation bytes still wanted, and the range of the next one. -/
structure Partial where
  owed : Nat
  lower : UInt8
  upper : UInt8
  deriving DecidableEq

namespace Partial

/-- Between two characters. -/
def boundary : Partial := ⟨0, 0x80, 0xBF⟩

def isBoundary (p : Partial) : Bool := p.owed == 0

/-- What a byte opens between two characters; nothing if no character starts with it. -/
def lead (b : UInt8) : Option Partial :=
  if b ≤ 0x7F then some boundary
  else if b < 0xC2 then none
  else if b ≤ 0xDF then some ⟨1, 0x80, 0xBF⟩
  else if b = 0xE0 then some ⟨2, 0xA0, 0xBF⟩
  else if b = 0xED then some ⟨2, 0x80, 0x9F⟩
  else if b ≤ 0xEF then some ⟨2, 0x80, 0xBF⟩
  else if b = 0xF0 then some ⟨3, 0x90, 0xBF⟩
  else if b ≤ 0xF3 then some ⟨3, 0x80, 0xBF⟩
  else if b = 0xF4 then some ⟨3, 0x80, 0x8F⟩
  else none

/-- The state after one more byte; nothing if the byte cannot stand here. -/
def step (p : Partial) (b : UInt8) : Option Partial :=
  match p.owed with
  | 0 => lead b
  | n + 1 => if p.lower ≤ b ∧ b ≤ p.upper then some ⟨n, 0x80, 0xBF⟩ else none

end Partial

/-! ### Faults of a whole byte string -/

/-- Where a byte string stops being UTF-8. -/
inductive Fault
  /-- The `width` bytes from `index` on start no character. -/
  | malformed (index width : Nat)
  /-- The string ends inside the character that starts at `index`. -/
  | cut (index : Nat)
  deriving DecidableEq

namespace Fault

/-- Bytes in front of the fault. -/
def index : Fault → Nat
  | malformed i _ => i
  | cut i => i

def message : Fault → String
  | malformed i w =>
    "invalid utf-8 sequence of " ++ toString w ++ " bytes from index " ++ toString i
  | cut i => "incomplete utf-8 byte sequence from index " ++ toString i

end Fault

/-- The first fault of the bytes to come, when the character in hand starts at `start`, `seen` of
    its bytes have passed and `p` is what it still wants. -/
def faultFrom (p : Partial) (start seen : Nat) : Bytes → Option Fault
  | [] => if seen = 0 then none else some (.cut start)
  | b :: bs =>
    match p.step b with
    | none => some (.malformed start (max 1 seen))
    | some q =>
      if q.isBoundary then faultFrom q (start + seen + 1) 0 bs
      else faultFrom q start (seen + 1) bs

/-- The first fault of a byte string, if it has one. -/
def fault? (bs : Bytes) : Option Fault := faultFrom .boundary 0 0 bs

/-! ### Between bytes and text -/

def encode (s : String) : Bytes := s.toByteArray.data.toList

/-- The text that the bytes encode, or their first fault. -/
def decode (bs : Bytes) : Except Fault String :=
  match String.fromUTF8? bs.toByteArray with
  | some s => .ok s
  | none => .error ((fault? bs).getD (.cut bs.length))

end Utf8

end WebSocketEngine
