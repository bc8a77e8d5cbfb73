import WebSocketEngine.Proofs.Utf8.WellFormed

/-!
Texts and the bytes that encode them.

The rows of the table are exactly the encodings of characters, so the well-formed strings are the
encodings of texts (`wellFormed_iff_exists_encode`) and `decode` succeeds on these alone.  A fault
says what stops the reading: in front of it the bytes are well-formed, and from there on either no
well-formed string goes on, or the bytes come to an end inside a character (`judged_fault?`).
-/

namespace WebSocketEngine.Utf8

/-! ### Characters -/

theorem isCharacter_utf8EncodeChar (c : Char) : IsCharacter (String.utf8EncodeChar c) := by
  have scalar := c.valid
  unfold UInt32.isValidChar Nat.isValidChar at scalar
  unfold String.utf8EncodeChar IsCharacter
  generalize c.val.toNat = v at scalar
  dsimp only
  split
  · refine ⟨[(0x00, 0x7F)], by decide, ?_⟩
    simp only [Fits, UInt8.le_iff_toNat_le, UInt8.toNat_ofNat', UInt8.reduceToNat, and_true]
    omega
  split
  · refine ⟨[(0xC2, 0xDF), (0x80, 0xBF)], by decide, ?_⟩
    simp only [Fits, UInt8.le_iff_toNat_le, UInt8.toNat_ofNat', UInt8.reduceToNat, and_true]
    omega
  split
  -- Three bytes: overlong forms and surrogates are why the second range depends on the first byte.
  · have rows : v < 0x1000 ∨ 0x1000 ≤ v ∧ v < 0xD000 ∨ 0xD000 ≤ v ∧ v < 0xD800 ∨ 0xE000 ≤ v := by
      omega
    rcases rows with h | h | h | h
    · refine ⟨[(0xE0, 0xE0), (0xA0, 0xBF), (0x80, 0xBF)], by decide, ?_⟩
      simp only [Fits, UInt8.le_iff_toNat_le, UInt8.toNat_ofNat', UInt8.reduceToNat, and_true]
      omega
    · refine ⟨[(0xE1, 0xEC), (0x80, 0xBF), (0x80, 0xBF)], by decide, ?_⟩
      simp only [Fits, UInt8.le_iff_toNat_le, UInt8.toNat_ofNat', UInt8.reduceToNat, and_true]
      omega
    · refine ⟨[(0xED, 0xED), (0x80, 0x9F), (0x80, 0xBF)], by decide, ?_⟩
      simp only [Fits, UInt8.le_iff_toNat_le, UInt8.toNat_ofNat', UInt8.reduceToNat, and_true]
      omega
    · refine ⟨[(0xEE, 0xEF), (0x80, 0xBF), (0x80, 0xBF)], by decide, ?_⟩
      simp only [Fits, UInt8.le_iff_toNat_le, UInt8.toNat_ofNat', UInt8.reduceToNat, and_true]
      omega
  · have rows : v < 0x40000 ∨ 0x40000 ≤ v ∧ v < 0x100000 ∨ 0x100000 ≤ v := by omega
    rcases rows with h | h | h
    · refine ⟨[(0xF0, 0xF0), (0x90, 0xBF), (0x80, 0xBF), (0x80, 0xBF)], by decide, ?_⟩
      simp only [Fits, UInt8.le_iff_toNat_le, UInt8.toNat_ofNat', UInt8.reduceToNat, and_true]
      omega
    · refine ⟨[(0xF1, 0xF3), (0x80, 0xBF), (0x80, 0xBF), (0x80, 0xBF)], by decide, ?_⟩
      simp only [Fits, UInt8.le_iff_toNat_le, UInt8.toNat_ofNat', UInt8.reduceToNat, and_true]
      omega
    · refine ⟨[(0xF4, 0xF4), (0x80, 0x8F), (0x80, 0xBF), (0x80, 0xBF)], by decide, ?_⟩
      simp only [Fits, UInt8.le_iff_toNat_le, UInt8.toNat_ofNat', UInt8.reduceToNat, and_true]
      omega

/-- A code point and its bytes. -/
theorem exists_char {n : Nat} {bs : Bytes} (valid : n.isValidChar)
    (h : (if n ≤ 0x7F then [UInt8.ofNat n]
      else if n ≤ 0x7FF then [UInt8.ofNat (n / 64 % 0x20 + 0xC0), UInt8.ofNat (n % 0x40 + 0x80)]
      else if n ≤ 0xFFFF then
        [UInt8.ofNat (n / 4096 % 0x10 + 0xE0), UInt8.ofNat (n / 64 % 0x40 + 0x80),
          UInt8.ofNat (n % 0x40 + 0x80)]
      else
        [UInt8.ofNat (n / 262144 % 0x08 + 0xF0), UInt8.ofNat (n / 4096 % 0x40 + 0x80),
          UInt8.ofNat (n / 64 % 0x40 + 0x80), UInt8.ofNat (n % 0x40 + 0x80)]) = bs) :
    ∃ c, String.utf8EncodeChar c = bs :=
  ⟨Char.ofNatAux n valid, h⟩

theorem exists_char_three {a b c : UInt8} (ha : 0xE0 ≤ a.toNat ∧ a.toNat ≤ 0xEF)
    (hb : 0x80 ≤ b.toNat ∧ b.toNat ≤ 0xBF) (hc : 0x80 ≤ c.toNat ∧ c.toNat ≤ 0xBF)
    (long : 0xE0 < a.toNat ∨ 0xA0 ≤ b.toNat) (scalar : a.toNat ≠ 0xED ∨ b.toNat ≤ 0x9F) :
    ∃ char, String.utf8EncodeChar char = [a, b, c] := by
  refine exists_char (n := (a.toNat % 16 * 64 + b.toNat % 64) * 64 + c.toNat % 64)
    (by simp only [Nat.isValidChar]; omega) ?_
  simp (disch := omega) only [if_pos, if_neg]
  simp only [List.cons.injEq, ← UInt8.toNat_inj, UInt8.toNat_ofNat', and_true]
  omega

theorem exists_char_four {a b c d : UInt8} (ha : 0xF0 ≤ a.toNat ∧ a.toNat ≤ 0xF4)
    (hb : 0x80 ≤ b.toNat ∧ b.toNat ≤ 0xBF) (hc : 0x80 ≤ c.toNat ∧ c.toNat ≤ 0xBF)
    (hd : 0x80 ≤ d.toNat ∧ d.toNat ≤ 0xBF) (long : 0xF0 < a.toNat ∨ 0x90 ≤ b.toNat)
    (scalar : a.toNat < 0xF4 ∨ b.toNat ≤ 0x8F) :
    ∃ char, String.utf8EncodeChar char = [a, b, c, d] := by
  refine exists_char
    (n := ((a.toNat % 8 * 64 + b.toNat % 64) * 64 + c.toNat % 64) * 64 + d.toNat % 64)
    (by simp only [Nat.isValidChar]; omega) ?_
  simp (disch := omega) only [if_neg]
  simp only [List.cons.injEq, ← UInt8.toNat_inj, UInt8.toNat_ofNat', and_true]
  omega

theorem exists_char_of_isCharacter {bs : Bytes} (h : IsCharacter bs) :
    ∃ c, String.utf8EncodeChar c = bs := by
  obtain ⟨row, mem, fits⟩ := h
  simp only [table, List.mem_cons, List.not_mem_nil, or_false] at mem
  rcases mem with rfl | rfl | rfl | rfl | rfl | rfl | rfl | rfl | rfl
  all_goals
    simp only [fits_cons_iff, fits_nil_iff, UInt8.le_iff_toNat_le, UInt8.reduceToNat] at fits
  · obtain ⟨a, _, rfl, ha, rfl⟩ := fits
    refine exists_char (n := a.toNat) (by simp only [Nat.isValidChar]; omega) ?_
    simp (disch := omega) only [if_pos]
    simp only [List.cons.injEq, ← UInt8.toNat_inj, UInt8.toNat_ofNat', and_true]
    omega
  · obtain ⟨a, _, rfl, ha, b, _, rfl, hb, rfl⟩ := fits
    refine exists_char (n := a.toNat % 32 * 64 + b.toNat % 64)
      (by simp only [Nat.isValidChar]; omega) ?_
    simp (disch := omega) only [if_pos, if_neg]
    simp only [List.cons.injEq, ← UInt8.toNat_inj, UInt8.toNat_ofNat', and_true]
    omega
  iterate 4
    obtain ⟨a, _, rfl, ha, b, _, rfl, hb, c, _, rfl, hc, rfl⟩ := fits
    exact exists_char_three (by omega) (by omega) hc (by omega) (by omega)
  all_goals
    obtain ⟨a, _, rfl, ha, b, _, rfl, hb, c, _, rfl, hc, d, _, rfl, hd, rfl⟩ := fits
    exact exists_char_four (by omega) (by omega) hc hd (by omega) (by omega)

/-! ### Texts -/

theorem wellFormed_iff_exists_chars {bs : Bytes} :
    WellFormed bs ↔ ∃ cs : List Char, bs = cs.flatMap String.utf8EncodeChar := by
  constructor
  · intro h
    induction h with
    | nil => exact ⟨[], rfl⟩
    | cons character _ ih =>
      obtain ⟨c, rfl⟩ := exists_char_of_isCharacter character
      obtain ⟨cs, rfl⟩ := ih
      exact ⟨c :: cs, rfl⟩
  · rintro ⟨cs, rfl⟩
    induction cs with
    | nil => exact .nil
    | cons c cs ih => exact .cons (isCharacter_utf8EncodeChar c) ih

theorem isValidUTF8_iff {bs : Bytes} : bs.toByteArray.IsValidUTF8 ↔ WellFormed bs := by
  rw [wellFormed_iff_exists_chars]
  constructor
  · rintro ⟨cs, h⟩
    exact ⟨cs, List.toByteArray_inj.mp h⟩
  · rintro ⟨cs, rfl⟩
    exact ⟨cs, rfl⟩

theorem toByteArray_encode (s : String) : (encode s).toByteArray = s.toByteArray :=
  ByteArray.ext (by simp [encode])

theorem encode_eq_iff {s : String} {bs : Bytes} :
    encode s = bs ↔ s.toByteArray = bs.toByteArray := by
  rw [← toByteArray_encode, List.toByteArray_inj]

theorem encode_injective {s t : String} (h : encode s = encode t) : s = t := by
  rwa [encode_eq_iff, toByteArray_encode, String.toByteArray_inj] at h

theorem wellFormed_encode (s : String) : WellFormed (encode s) := by
  rw [← isValidUTF8_iff, toByteArray_encode]
  exact s.isValidUTF8

/-- The bytes of a text, one character after another. -/
theorem encode_ofList (cs : List Char) :
    encode (String.ofList cs) = cs.flatMap String.utf8EncodeChar := by
  rw [encode_eq_iff, String.toByteArray_ofList]
  rfl

theorem encode_eq_flatMap (s : String) : encode s = s.toList.flatMap String.utf8EncodeChar := by
  rw [← encode_ofList, String.ofList_toList]

/-- The text that well-formed bytes encode. -/
def textOf (bs : Bytes) (h : WellFormed bs) : String :=
  String.fromUTF8 bs.toByteArray (isValidUTF8_iff.mpr h)

theorem encode_textOf {bs : Bytes} (h : WellFormed bs) : encode (textOf bs h) = bs :=
  encode_eq_iff.mpr rfl

/-- The well-formed strings are the encodings of texts. -/
theorem wellFormed_iff_exists_encode {bs : Bytes} : WellFormed bs ↔ ∃ s, encode s = bs := by
  constructor
  · intro h
    exact ⟨textOf bs h, encode_textOf h⟩
  · rintro ⟨s, rfl⟩
    exact wellFormed_encode s

theorem decode_of_wellFormed {bs : Bytes} (h : WellFormed bs) : decode bs = .ok (textOf bs h) := by
  unfold decode String.fromUTF8?
  rw [dif_pos (isValidUTF8_iff.mpr h)]
  rfl

theorem decode_of_not_wellFormed {bs : Bytes} (h : ¬ WellFormed bs) :
    ∃ fault, decode bs = .error fault := by
  unfold decode String.fromUTF8?
  rw [dif_neg (mt isValidUTF8_iff.mp h)]
  exact ⟨_, rfl⟩

/-! ### Faults -/

/-- What a fault, or that there is none, says of the bytes. -/
def Judged (bs : Bytes) : Option Fault → Prop
  | none => WellFormed bs
  | some (.malformed i _) => WellFormed (bs.take i) ∧ ¬ Begins bs
  | some (.cut i) => WellFormed (bs.take i) ∧ Begins bs ∧ ¬ WellFormed bs

/-- Whole characters have been read, and the bytes in `part` of the next one, which leave `p`. -/
theorem judged_faultFrom {whole part rest : Bytes} {p : Partial}
    (hw : run .boundary whole = some .boundary) (hp : run .boundary part = some p)
    (inside : p.isBoundary = true → part = []) :
    Judged (whole ++ part ++ rest) (faultFrom p whole.length part.length rest) := by
  have well : WellFormed whole := run_eq_boundary_iff.mp hw
  have reach : run .boundary (whole ++ part) = some p := by rw [run_append, hw]; exact hp
  induction rest generalizing whole part p with
  | nil =>
    rw [List.append_nil, faultFrom]
    split
    · next none =>
      rw [List.eq_nil_of_length_eq_zero none, List.append_nil]
      exact well
    · next some =>
      refine ⟨by rwa [List.take_left], run_ne_none_iff.mp (by simp [reach]), ?_⟩
      refine fun whole_well => some ?_
      rw [← run_eq_boundary_iff, reach] at whole_well
      cases whole_well
      rw [inside rfl]
      rfl
  | cons b rest ih =>
    rw [faultFrom]
    cases step : p.step b with
    | none =>
      refine ⟨by rwa [List.append_assoc, List.take_left], run_eq_none_iff.mp ?_⟩
      rw [run_append, reach]
      simp [run, step]
    | some q =>
      have next : run .boundary (part ++ [b]) = some q := by simp [run_append, hp, run, step]
      have onward : run .boundary (whole ++ (part ++ [b])) = some q := by
        rw [run_append, hw]
        exact next
      dsimp only
      split
      · next boundary =>
        rw [(valid_of_step step).eq_boundary boundary] at onward ⊢
        have := @ih _ [] _ onward rfl (fun _ => rfl) (run_eq_boundary_iff.mp onward)
          (by rwa [List.append_nil])
        simpa [Nat.add_assoc] using this
      · next inside' =>
        have := ih hw next (fun boundary => absurd boundary inside') well onward
        simpa using this

/-- Without a fault the bytes are well-formed.  Otherwise they are so in front of it, and it says
    whether a well-formed string can begin with all of them. -/
theorem judged_fault? (bs : Bytes) : Judged bs (fault? bs) :=
  @judged_faultFrom [] [] bs .boundary rfl rfl (fun _ => rfl)

end WebSocketEngine.Utf8
