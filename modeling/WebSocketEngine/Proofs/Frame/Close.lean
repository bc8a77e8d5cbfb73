import WebSocketEngine.Frame
import WebSocketEngine.Proofs.Utf8.Text

/-!
CLOSE frames carry their codes.

A code that was read from a frame is written back as it was read.  The exception that is left out is
`other` with a number that has a name, which no frame is ever read as.  With a proper code and a
short reason a CLOSE frame is one that may be sent (`wellMade_close`).
-/

namespace WebSocketEngine

/-- The code is the one that its number is read as. -/
def CloseCode.Proper (code : CloseCode) : Prop := .ofValue code.value = code

theorem CloseCode.proper_ofValue (n : UInt16) : (CloseCode.ofValue n).Proper := by
  fun_cases CloseCode.ofValue n with
  | case9 => simp only [Proper, value, ofValue, *, if_false]
  | _ => rfl

namespace Frame

/-- The two bytes of a status are read as that status. -/
theorem statusBytes_status (n : UInt16) :
    (n >>> 8).toUInt8.toUInt16 <<< 8 ||| n.toUInt8.toUInt16 = n := by
  have bound := n.toNat_lt
  apply UInt16.toNat_inj.mp
  simp only [UInt16.toUInt16_toUInt8, UInt16.toNat_or, UInt16.toNat_shiftLeft, UInt16.toNat_mod,
    UInt16.toNat_shiftRight, UInt16.reduceToNat, Nat.reduceMod, Nat.shiftRight_eq_div_pow,
    Nat.shiftLeft_eq, Nat.reducePow]
  rw [Nat.mod_eq_of_lt (by omega), ← Nat.shiftLeft_eq _ 8,
    ← Nat.shiftLeft_add_eq_or_of_lt (by omega), Nat.shiftLeft_eq]
  omega

/-- A CLOSE frame has the code that it was made with. -/
theorem closeCode_close {code : CloseCode} (proper : code.Proper) (reason : String) :
    (Frame.close code reason).closeCode = some code := by
  unfold close
  split
  · next none => rw [none]; rfl
  · exact congrArg some ((congrArg CloseCode.ofValue (statusBytes_status code.value)).trans proper)

/-- The code of a frame is proper. -/
theorem proper_of_closeCode {f : Frame} {code : CloseCode} (read : f.closeCode = some code) :
    code.Proper := by
  unfold closeCode at read
  split at read
  · obtain rfl := Option.some.inj read
    cases f.closeStatus with
    | none => rfl
    | some n => exact CloseCode.proper_ofValue n
  · cases read

/-- A CLOSE frame that may be sent: the payload is short, it has no status or all of it, never the one
    that says that there is none, and a reason in UTF-8. -/
structure WellMade (f : Frame) : Prop where
  op : f.op = .close
  short : f.payload.length ≤ 125
  status : f.payload = [] ∨ 2 ≤ f.payload.length
  unwritten : f.closeStatus ≠ some 1005
  reason : Utf8.WellFormed (f.payload.drop 2)

theorem wellMade_close {code : CloseCode} (proper : code.Proper) {reason : String}
    (short : (Utf8.encode reason).length ≤ 123) : (Frame.close code reason).WellMade := by
  by_cases none : code = .noStatus
  · subst none
    exact ⟨rfl, Nat.zero_le _, .inl rfl, nofun, .nil⟩
  · have frame : Frame.close code reason =
        ⟨.close, true, statusBytes code.value ++ Utf8.encode reason⟩ := if_neg none
    have length : (statusBytes code.value ++ Utf8.encode reason).length =
        2 + (Utf8.encode reason).length := List.length_append
    rw [frame]
    refine ⟨rfl, ?_, .inr ?_, fun unwritten => ?_, Utf8.wellFormed_encode reason⟩
    · show (statusBytes code.value ++ Utf8.encode reason).length ≤ 125
      omega
    · show 2 ≤ (statusBytes code.value ++ Utf8.encode reason).length
      omega
    · have value : code.value = 1005 :=
        (statusBytes_status code.value).symm.trans (Option.some.inj unwritten)
      have read : CloseCode.ofValue code.value = .noStatus := by
        rw [value]
        rfl
      exact none (proper.symm.trans read)

end Frame

end WebSocketEngine
