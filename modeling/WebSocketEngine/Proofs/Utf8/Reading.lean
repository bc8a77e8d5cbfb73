import WebSocketEngine.Proofs.Utf8.Text
import WebSocketEngine.Utf8.Lossy

/-!
Texts, read by the decoder that never refuses.

    between two characters ── lead byte ──▶ inside one, with the first bits of its code point
    inside one             ── next byte ──▶ inside it, with six more bits
    inside one             ── last byte ──▶ between two, with one character more

The bytes of a character never leave this diagram, and together they carry its code point
(`foldl_step_utf8EncodeChar`).  So the bytes of a text read as that text (`decodeLossy_encode`), and
a well-formed string is what encodes the text that it reads as (`encode_decodeLossy`).
-/

namespace WebSocketEngine.Utf8

namespace Lossy

/-- The bits of a code point, after those of some more bytes. -/
def gather (bits : Nat) (tail : Bytes) : Nat :=
  tail.foldl (fun bits b => bits * 64 + b.toNat % 64) bits

/-- The code point that the bytes of a character carry. -/
def codePoint : Bytes → Nat
  | [] => 0
  | b :: tail => gather (leadBits tail.length b) tail

/-! ### One character -/

/-- The bytes that are wanted finish the character. -/
theorem foldl_step_of_fits {p : Partial} {tail : Bytes} (inside : p.isBoundary = false)
    (fits : Fits p.debts tail) (bits : Nat) (out : List Char) :
    tail.foldl step (⟨p, bits⟩, out) =
      (⟨.boundary, 0⟩, Char.ofNat (gather bits tail) :: out) := by
  induction tail generalizing p bits with
  | nil =>
    have paid : p.owed = 0 := by
      rw [← length_debts, ← length_of_fits fits]
      rfl
    rw [Partial.isBoundary, paid] at inside
    cases inside
  | cons b tail ih =>
    obtain ⟨q, paid, fits⟩ := step_of_fits inside fits
    have stepped : step (⟨p, bits⟩, out) b =
        if q.isBoundary then (⟨q, 0⟩, Char.ofNat (bits * 64 + b.toNat % 64) :: out)
        else (⟨q, bits * 64 + b.toNat % 64⟩, out) := by
      simp only [step, inside, Bool.false_eq_true, if_false, paid]
    rw [List.foldl_cons, stepped]
    cases done : q.isBoundary with
    | false => exact ih done fits _
    | true =>
      rw [(valid_of_step paid).eq_boundary done] at fits ⊢
      rw [fits_nil_iff.mp fits]
      rfl

/-- A character is read from its bytes. -/
theorem foldl_step_of_isCharacter {cs : Bytes} (character : IsCharacter cs) (out : List Char) :
    cs.foldl step (⟨.boundary, 0⟩, out) = (⟨.boundary, 0⟩, Char.ofNat (codePoint cs) :: out) := by
  obtain ⟨row, mem, fits⟩ := character
  cases row with
  | nil => exact absurd mem (by decide)
  | cons r rs =>
    obtain ⟨b, tail, rfl, range, fits⟩ := fits_cons_iff.mp fits
    obtain ⟨p, leads, rfl⟩ := lead_of_row mem range
    have owed : p.owed = tail.length := by rw [length_of_fits fits, length_debts]
    have started : step (⟨.boundary, 0⟩, out) b =
        if p.isBoundary then (⟨p, 0⟩, Char.ofNat (leadBits p.owed b) :: out)
        else (⟨p, leadBits p.owed b⟩, out) := by
      show start b out = _
      rw [start, leads]
    rw [List.foldl_cons, started, codePoint]
    cases single : p.isBoundary with
    | false =>
      rw [if_neg Bool.false_ne_true, foldl_step_of_fits single fits, owed]
    | true =>
      rw [if_pos rfl, owed]
      rw [(valid_of_lead leads).eq_boundary single] at fits ⊢
      rw [fits_nil_iff.mp fits]
      rfl

/-- The bytes of a character carry its code point. -/
theorem codePoint_utf8EncodeChar (c : Char) : codePoint (String.utf8EncodeChar c) = c.toNat := by
  have scalar := c.valid
  unfold UInt32.isValidChar Nat.isValidChar at scalar
  unfold String.utf8EncodeChar
  show _ = c.val.toNat
  generalize c.val.toNat = v at scalar
  dsimp only
  split
  · simp only [codePoint, gather, leadBits, List.length_nil, List.foldl_nil, UInt8.toNat_ofNat']
    omega
  split
  · simp only [codePoint, gather, leadBits, List.length_cons, List.length_nil, List.foldl_cons,
      List.foldl_nil, UInt8.toNat_ofNat']
    omega
  split
  · simp only [codePoint, gather, leadBits, List.length_cons, List.length_nil, List.foldl_cons,
      List.foldl_nil, UInt8.toNat_ofNat']
    omega
  · simp only [codePoint, gather, leadBits, List.length_cons, List.length_nil, List.foldl_cons,
      List.foldl_nil, UInt8.toNat_ofNat']
    omega

theorem foldl_step_utf8EncodeChar (c : Char) (out : List Char) :
    (String.utf8EncodeChar c).foldl step (⟨.boundary, 0⟩, out) = (⟨.boundary, 0⟩, c :: out) := by
  rw [foldl_step_of_isCharacter (isCharacter_utf8EncodeChar c), codePoint_utf8EncodeChar,
    Char.ofNat_toNat]

end Lossy

/-! ### Texts -/

theorem foldl_step_flatMap (cs out : List Char) :
    (cs.flatMap String.utf8EncodeChar).foldl Lossy.step (⟨.boundary, 0⟩, out) =
      (⟨.boundary, 0⟩, cs.reverse ++ out) := by
  induction cs generalizing out with
  | nil => rfl
  | cons c cs ih =>
    rw [List.flatMap_cons, List.foldl_append, Lossy.foldl_step_utf8EncodeChar, ih,
      List.reverse_cons, List.append_assoc]
    rfl

/-- The bytes of a text read as that text. -/
theorem decodeLossy_encode (s : String) : decodeLossy (encode s) = s := by
  rw [decodeLossy, encode_eq_flatMap, foldl_step_flatMap]
  simp [Partial.isBoundary, Partial.boundary]

theorem encode_decodeLossy {bs : Bytes} (well : WellFormed bs) : encode (decodeLossy bs) = bs := by
  obtain ⟨s, rfl⟩ := wellFormed_iff_exists_encode.mp well
  rw [decodeLossy_encode]

end WebSocketEngine.Utf8
