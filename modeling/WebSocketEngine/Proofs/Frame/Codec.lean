import WebSocketEngine.Proofs.Frame.Close
import WebSocketEngine.Proofs.Utf8.Reading

/-!
CLOSE frames, written and read.

    payload    nothing, or one byte     no status, and no reason
               high  low  rest ..       a status, high byte first, and a reason

What is written from a code and a reason reads as that code and that reason, and what a frame reads
as is written as that frame again (`close_codec`).  The first leaves out codes that no frame reads
as; the second leaves out frames that nobody writes: a single byte, the status that says that there
is none, a reason that is no text.
-/

namespace WebSocketEngine

/-! ### Codes -/

namespace CloseCode

theorem value_ofValue (n : UInt16) : (ofValue n).value = n := by
  fun_cases ofValue n with
  | case9 => rfl
  | _ => simp only [value, *]

theorem ofValue_eq_noStatus_iff {n : UInt16} : ofValue n = noStatus ↔ n = 1005 := by
  constructor
  · intro none
    rw [← value_ofValue n, none]
    rfl
  · rintro rfl
    rfl

end CloseCode

namespace Frame

variable {f : Frame}

/-! ### Statuses -/

/-- The number of two bytes, high byte first. -/
theorem toNat_status (high low : UInt8) :
    (high.toUInt16 <<< 8 ||| low.toUInt16).toNat = high.toNat * 256 + low.toNat := by
  have top := high.toNat_lt
  have bottom := low.toNat_lt
  simp only [UInt16.toNat_or, UInt16.toNat_shiftLeft, UInt8.toNat_toUInt16, UInt16.reduceToNat,
    Nat.reduceMod, Nat.reducePow]
  rw [Nat.mod_eq_of_lt (by rw [Nat.shiftLeft_eq]; omega),
    ← Nat.shiftLeft_add_eq_or_of_lt (by omega), Nat.shiftLeft_eq]

/-- The status of two bytes is written as those two bytes. -/
theorem statusBytes_of_bytes (high low : UInt8) :
    statusBytes (high.toUInt16 <<< 8 ||| low.toUInt16) = [high, low] := by
  have whole := toNat_status high low
  have top := high.toNat_lt
  have bottom := low.toNat_lt
  generalize high.toUInt16 <<< 8 ||| low.toUInt16 = n at whole
  simp only [statusBytes, List.cons.injEq, ← UInt8.toNat_inj, UInt16.toNat_toUInt8,
    UInt16.toNat_shiftRight, UInt16.reduceToNat, Nat.reduceMod, Nat.shiftRight_eq_div_pow,
    Nat.reducePow, whole, and_true]
  omega

/-- A CLOSE frame has a status exactly if it has two bytes, and that is their number. -/
theorem closeStatus_eq_some_iff (op : f.op = .close) {n : UInt16} :
    f.closeStatus = some n ↔
      ∃ high low rest, f.payload = high :: low :: rest ∧ n.toNat = high.toNat * 256 + low.toNat := by
  unfold closeStatus
  rw [op]
  rcases f.payload with - | ⟨high, - | ⟨low, rest⟩⟩
  · simp
  · simp
  · rw [Option.some.injEq, ← UInt16.toNat_inj, toNat_status]
    constructor
    · intro number
      exact ⟨high, low, rest, rfl, number.symm⟩
    · rintro ⟨_, _, _, bytes, number⟩
      cases bytes
      exact number.symm

theorem closeStatus_eq_none_iff (op : f.op = .close) :
    f.closeStatus = none ↔ f.payload.length < 2 := by
  unfold closeStatus
  rw [op]
  rcases f.payload with - | ⟨high, - | ⟨low, rest⟩⟩ <;> simp

/-! ### Reading what was written -/

/-- What a CLOSE frame reads as. -/
structure Reads (f : Frame) (status : Option UInt16) (code : CloseCode) (reason : Option String) :
    Prop where
  status : f.closeStatus = status
  code : f.closeCode = some code
  reason : f.closeReason = reason

theorem reads_close {code : CloseCode} (proper : code.Proper) (named : code ≠ .noStatus)
    (reason : String) : (close code reason).Reads (some code.value) code (some reason) := by
  have status : (close code reason).closeStatus = some code.value := by
    rw [close, if_neg named]
    exact congrArg some (statusBytes_status code.value)
  refine ⟨status, closeCode_close proper reason, ?_⟩
  rw [closeReason, status, close, if_neg named]
  exact congrArg some (Utf8.decodeLossy_encode reason)

/-! ### Writing what was read -/

/-- A final CLOSE frame with nothing in it, or with a status other than 1005 and a reason that is
    text. -/
structure Written (f : Frame) : Prop where
  fin : f.fin = true
  payload : f.payload = [] ∨
    2 ≤ f.payload.length ∧ f.closeStatus ≠ some 1005 ∧ Utf8.WellFormed (f.payload.drop 2)

theorem closeCode_eq (op : f.op = .close) :
    f.closeCode = some ((f.closeStatus.map CloseCode.ofValue).getD .noStatus) := if_pos op

/-- A CLOSE frame has the code `noStatus` without a status, and with the one that says so. -/
theorem noStatus_iff (status : Option UInt16) :
    (status.map CloseCode.ofValue).getD .noStatus = .noStatus ↔
      status = none ∨ status = some 1005 := by
  cases status with
  | none => simp
  | some n => simp [CloseCode.ofValue_eq_noStatus_iff]

/-- What a frame reads as is written as that frame. -/
theorem close_of_written (op : f.op = .close) (written : f.Written) :
    close ((f.closeStatus.map CloseCode.ofValue).getD .noStatus) (f.closeReason.getD "") = f := by
  obtain ⟨op', fin, payload⟩ := f
  obtain rfl : op' = .close := op
  obtain ⟨rfl, empty | ⟨long, named, well⟩⟩ := written
  · obtain rfl : payload = [] := empty
    rfl
  · rcases payload with - | ⟨high, - | ⟨low, rest⟩⟩
    · cases long
    · exact absurd long (by simp)
    · have unnamed : CloseCode.ofValue (high.toUInt16 <<< 8 ||| low.toUInt16) ≠ .noStatus := by
        intro none
        exact named (congrArg some (CloseCode.ofValue_eq_noStatus_iff.mp none))
      have text : Utf8.encode (Utf8.decodeLossy rest) = rest := Utf8.encode_decodeLossy well
      show close (.ofValue _) (Utf8.decodeLossy rest) = _
      rw [close, if_neg unnamed, CloseCode.value_ofValue, statusBytes_of_bytes, text]
      rfl

/-- A code that can be read, with a reason of any length, reads from a CLOSE frame as it was written,
    but for `noStatus`, which leaves nothing.  Every CLOSE frame reads as a code, whatever its
    payload, and those that can be written are written from what they read as. -/
theorem close_codec (n : UInt16) (reason : String) (f : Frame) :
    (CloseCode.ofValue n ≠ .noStatus →
      (close (.ofValue n) reason).Reads (some (CloseCode.ofValue n).value) (.ofValue n)
        (some reason)) ∧
    (close .noStatus reason).payload = [] ∧ (close .noStatus reason).Reads none .noStatus none ∧
    (f.op = .close →
      (∃ code, f.closeCode = some code ∧
        (code = .noStatus ↔ f.closeStatus = none ∨ f.closeStatus = some 1005) ∧
        (f.Written → close code (f.closeReason.getD "") = f)) ∧
      (f.closeStatus = none ↔ f.payload.length < 2) ∧
      (∀ m, f.closeStatus = some m ↔ ∃ high low rest,
        f.payload = high :: low :: rest ∧ m.toNat = high.toNat * 256 + low.toNat) ∧
      f.closeReason.isSome = f.closeStatus.isSome) := by
  refine ⟨fun named => ?_, rfl, ⟨rfl, rfl, rfl⟩, fun op => ⟨?_, ?_, ?_, ?_⟩⟩
  · exact reads_close (CloseCode.proper_ofValue n) named reason
  · exact ⟨_, closeCode_eq op, noStatus_iff _, close_of_written op⟩
  · exact closeStatus_eq_none_iff op
  · exact fun m => closeStatus_eq_some_iff op
  · exact Option.isSome_map

/-- The status 4000 and the reason "é", in both directions. -/
theorem close_codec_accented :
    let f : Frame := ⟨.close, true, [0x0F, 0xA0, 0xC3, 0xA9]⟩
    CloseCode.ofValue 4000 ≠ .noStatus ∧ f.op = .close ∧ f.Written ∧
      (close (.ofValue 4000) "é").Reads (some 4000) (.other 4000) (some "é") ∧
      ∃ code, f.closeCode = some code ∧ close code (f.closeReason.getD "") = f := by
  intro f
  have named : CloseCode.ofValue 4000 ≠ .noStatus := by decide
  have written : f.Written := ⟨rfl, .inr ⟨by decide, by decide, by decide⟩⟩
  obtain ⟨reads, -, -, others⟩ := close_codec 4000 "é" f
  obtain ⟨⟨code, read, -, restores⟩, -⟩ := others rfl
  exact ⟨named, rfl, written, reads named, code, read, restores written⟩

end Frame

end WebSocketEngine
