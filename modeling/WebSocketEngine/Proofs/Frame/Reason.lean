import WebSocketEngine.Failure
import WebSocketEngine.Proofs.Utf8.Text

/-!
What a CLOSE frame says of a failure whose message is too long for it.

A text can be cut at either end, and in front of a byte with which a character begins.  The place is
looked for in the bytes, from the limit downwards:

    bytes     .. │ c c c │ d d d d │ e ..        c, d, e: the bytes of three characters
    looked at        ◀─◀─◀─╯

No character has more than four bytes, so it is found three bytes below the limit at the latest, and
inside the text.  What is in front of it are just the characters that fit (`shortened_ofFailure`).
-/

namespace WebSocketEngine

open Utf8

namespace CloseReason

/-! ### Places to cut -/

/-- A character can begin with the byte. -/
def leads (b : UInt8) : Bool := b < 0x80 || 0xC0 ≤ b

/-- A text can be cut in front of the byte at `i`, or at its end. -/
def isCut (bs : Bytes) (i : Nat) : Bool :=
  i == 0 || match bs[i]? with
    | some b => leads b
    | none => i == bs.length

/-- The places that are looked at, from `i` down to the first at which the text can be cut. -/
def lookedAt (bs : Bytes) : Nat → List Nat
  | 0 => [0]
  | i + 1 => (i + 1) :: if isCut bs (i + 1) then [] else lookedAt bs i

variable {bs cs ds : Bytes} {i n m : Nat}

/-- A character begins with its first byte, and with none after it. -/
theorem leads_of_isCharacter (character : IsCharacter cs) :
    ∃ b tail, cs = b :: tail ∧ leads b = true ∧ ∀ t ∈ tail, leads t = false := by
  have rows : ∀ row ∈ table, row.head?.all (fun r => r.2 < 0x80 || 0xC0 ≤ r.1) = true ∧
      row.tail.all (fun r => 0x80 ≤ r.1 && r.2 < 0xC0) = true := by decide
  have later : ∀ (rs : List (UInt8 × UInt8)) (tail : Bytes),
      rs.all (fun r => 0x80 ≤ r.1 && r.2 < 0xC0) = true → Fits rs tail →
        ∀ t ∈ tail, leads t = false := by
    intro rs
    induction rs with
    | nil =>
      intro tail _ fits
      rw [fits_nil_iff.mp fits]
      exact fun _ none => (List.not_mem_nil none).elim
    | cons r rs ih =>
      intro tail ranges fits t mem
      obtain ⟨b, tail, rfl, ⟨low, high⟩, fits⟩ := fits_cons_iff.mp fits
      simp only [List.all_cons, Bool.and_eq_true, decide_eq_true_eq] at ranges
      obtain ⟨⟨bottom, top⟩, ranges⟩ := ranges
      rcases List.mem_cons.mp mem with rfl | mem
      · have above : 0x80 ≤ t := UInt8.le_trans bottom low
        have below : t < 0xC0 := UInt8.lt_of_le_of_lt high top
        simp [leads, above, below]
      · exact ih tail ranges fits t mem
  obtain ⟨row, mem, fits⟩ := character
  obtain ⟨first, others⟩ := rows row mem
  cases row with
  | nil => exact absurd mem (by decide)
  | cons r rs =>
    obtain ⟨b, tail, rfl, ⟨low, high⟩, fits⟩ := fits_cons_iff.mp fits
    refine ⟨b, tail, rfl, ?_, later rs tail others fits⟩
    simp only [List.head?_cons, Option.all_some, Bool.or_eq_true, decide_eq_true_eq] at first
    rcases first with ascii | above
    · simp [leads, UInt8.lt_of_le_of_lt high ascii]
    · simp [leads, UInt8.le_trans above low]

/-- Between two characters a text can be cut. -/
theorem isCut_of_wellFormed (well : WellFormed cs) : isCut (bs ++ cs) bs.length = true := by
  cases well with
  | nil => simp [isCut]
  | cons character well =>
    obtain ⟨b, tail, rfl, first, -⟩ := leads_of_isCharacter character
    simp [isCut, first]

/-- Inside a character a text cannot be cut. -/
theorem isCut_inside (character : IsCharacter cs) (after : bs.length < i)
    (before : i < bs.length + cs.length) : isCut (bs ++ cs ++ ds) i = false := by
  obtain ⟨b, tail, rfl, -, others⟩ := leads_of_isCharacter character
  obtain ⟨k, rfl⟩ := Nat.exists_eq_add_of_lt after
  have within : k < tail.length := by
    rw [List.length_cons] at before
    omega
  have byte : (bs ++ b :: tail ++ ds)[bs.length + k + 1]? = some tail[k] := by
    rw [List.append_assoc, Nat.add_assoc, List.getElem?_append_right (Nat.le_add_right _ _),
      Nat.add_sub_cancel_left, List.cons_append, List.getElem?_cons_succ,
      List.getElem?_append_left within, List.getElem?_eq_getElem within]
  rw [isCut, byte]
  simp [others _ (List.getElem_mem within)]

/-- With no place to cut above `n`, that is where the looking ends. -/
theorem lookedAt_of_isCut (cut : isCut bs n = true)
    (uncut : ∀ i, n < i → i ≤ m → isCut bs i = false) (le : n ≤ m) :
    (lookedAt bs m).getLast? = some n ∧ ∀ i ∈ lookedAt bs m, n ≤ i ∧ i ≤ m := by
  induction m with
  | zero =>
    obtain rfl : n = 0 := Nat.le_zero.mp le
    exact ⟨rfl, fun i mem => by simp [List.mem_singleton.mp mem]⟩
  | succ m ih =>
    rw [lookedAt]
    rcases Nat.lt_or_ge n (m + 1) with below | at_least
    · obtain ⟨last, range⟩ := ih (fun i above le => uncut i above (Nat.le_succ_of_le le))
        (Nat.le_of_lt_succ below)
      rw [if_neg (by rw [uncut (m + 1) below (Nat.le_refl _)]; exact Bool.false_ne_true)]
      refine ⟨by rw [List.getLast?_cons, last]; rfl, fun i mem => ?_⟩
      rcases List.mem_cons.mp mem with rfl | mem
      · exact ⟨le, Nat.le_refl _⟩
      · exact ⟨(range i mem).1, Nat.le_succ_of_le (range i mem).2⟩
    · obtain rfl : n = m + 1 := Nat.le_antisymm le at_least
      rw [if_pos cut]
      exact ⟨rfl, fun i mem => by simp [List.mem_singleton.mp mem]⟩

/-! ### The characters that fit -/

/-- The bytes of some characters. -/
abbrev spelt (cs : List Char) : Bytes := cs.flatMap String.utf8EncodeChar

theorem wellFormed_spelt (cs : List Char) : WellFormed (spelt cs) :=
  wellFormed_iff_exists_chars.mpr ⟨cs, rfl⟩

/-- Characters are left out from the first one on that does not fit. -/
theorem exists_leftOut (room : Nat) (cs : List Char) :
    ∃ out, cs = fitting room cs ++ out ∧ (spelt (fitting room cs)).length ≤ room ∧
      ∀ c ∈ out.head?, room < (spelt (fitting room cs)).length + c.utf8Size := by
  induction cs generalizing room with
  | nil => exact ⟨[], rfl, Nat.zero_le room, nofun⟩
  | cons c cs ih =>
    rw [fitting]
    split
    · next fits =>
      obtain ⟨out, whole, short, full⟩ := ih (room - c.utf8Size)
      have size : (spelt (c :: fitting (room - c.utf8Size) cs)).length =
          c.utf8Size + (spelt (fitting (room - c.utf8Size) cs)).length := by
        rw [spelt, List.flatMap_cons, List.length_append, String.length_utf8EncodeChar]
      refine ⟨out, by rw [List.cons_append, ← whole], by omega, fun d first => ?_⟩
      have := full d first
      omega
    · next large =>
      refine ⟨c :: cs, rfl, Nat.zero_le room, fun d first => ?_⟩
      cases first
      show room < 0 + c.utf8Size
      omega

/-- `t` is what is left of the text `s` when it is cut off to `room` bytes. -/
structure Shortened (room : Nat) (s t : String) : Prop where
  begins : encode t <+: encode s
  fits : (encode t).length ≤ room
  cut : isCut (encode s) (encode t).length = true
  /-- Up to the limit there is no place to cut behind this one. -/
  longest : ∀ i ≤ room, i ≤ (encode s).length → isCut (encode s) i = true → i ≤ (encode t).length
  whole : (encode s).length ≤ room → t = s
  /-- Looking for the place ends here, -/
  found : room < (encode s).length →
    (lookedAt (encode s) room).getLast? = some (encode t).length
  /-- and until then it stays near the limit and inside the text. -/
  near : room < (encode s).length → ∀ i ∈ lookedAt (encode s) room,
    room - 3 ≤ i ∧ i ≤ room ∧ i < (encode s).length

theorem shortened_of_fits {room : Nat} {s : String} (fits : (encode s).length ≤ room) :
    Shortened room s s where
  begins := List.prefix_rfl
  fits := fits
  cut := by
    have cut : isCut (encode s ++ []) (encode s).length = true := isCut_of_wellFormed .nil
    rwa [List.append_nil] at cut
  longest _ _ le _ := le
  whole _ := rfl
  found long := (Nat.not_le_of_lt long fits).elim
  near long := (Nat.not_le_of_lt long fits).elim

/-- The characters that fit are what is left. -/
theorem shortened_fitting (room : Nat) (s : String) :
    Shortened room s (String.ofList (fitting room s.toList)) := by
  obtain ⟨out, whole, short, full⟩ := exists_leftOut room s.toList
  generalize fitting room s.toList = kept at whole short full
  have left : encode (String.ofList kept) = spelt kept := encode_ofList kept
  rw [← left] at short full
  cases out with
  | nil =>
    -- Nothing is left out.
    have same : String.ofList kept = s := by
      rw [← String.ofList_toList (s := s), whole, List.append_nil]
    rw [same] at short ⊢
    exact shortened_of_fits short
  | cons c out =>
    generalize String.ofList kept = t at left short full
    have bytes : encode s = encode t ++ String.utf8EncodeChar c ++ spelt out := by
      rw [encode_eq_flatMap, whole, List.flatMap_append, List.flatMap_cons, left, List.append_assoc]
    have size : (String.utf8EncodeChar c).length = c.utf8Size := String.length_utf8EncodeChar c
    have four : c.utf8Size ≤ 4 := Char.utf8Size_le_four c
    have beyond : room < (encode t).length + c.utf8Size := full c rfl
    have length : (encode s).length = (encode t).length + c.utf8Size + (spelt out).length := by
      rw [bytes, List.length_append, List.length_append, size]
    have cut : isCut (encode s) (encode t).length = true := by
      rw [bytes, List.append_assoc]
      exact isCut_of_wellFormed (wellFormed_spelt (c :: out))
    have uncut (i : Nat) (above : (encode t).length < i) (le : i ≤ room) :
        isCut (encode s) i = false := by
      rw [bytes]
      exact isCut_inside (isCharacter_utf8EncodeChar c) above (by omega)
    obtain ⟨last, range⟩ := lookedAt_of_isCut cut uncut short
    refine ⟨?_, short, cut, fun i le _ another => ?_, fun fits => ?_, fun _ => last, ?_⟩
    · rw [bytes, List.append_assoc]
      exact List.prefix_append _ _
    · refine Nat.le_of_not_lt fun above => ?_
      rw [uncut i above le] at another
      cases another
    · omega
    · intro _ i mem
      have := range i mem
      omega

/-- The reason for a failure is the failure's message, or what is left of it. -/
theorem shortened_ofFailure (e : Failure) : Shortened 123 e.message (ofFailure e) :=
  shortened_fitting capacity e.message

end CloseReason

end WebSocketEngine
