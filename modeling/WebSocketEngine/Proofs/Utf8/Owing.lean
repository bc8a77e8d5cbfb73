import WebSocketEngine.Proofs.Utf8.Offsets

/-!
What the machine's state says of the bytes before it.

    … whole characters │                 owes 0
    … whole characters │ E2 82           owes 1, next 80–BF
    … whole characters │ F4              owes 3, next 80–8F

The bytes of a row that came in and the debt make up the row (`exists_front`).  So the debt counts
what the last character still lacks, whichever character it is going to be, and its range is that of
the one byte that may follow (`owes_of_run`).
-/

namespace WebSocketEngine.Utf8

variable {bs tail rest : Bytes} {p q : Partial}

/-- The first bytes of a character, and the number of those to come, the same for every character
    that starts in this way. -/
structure Lacks (tail : Bytes) (n : Nat) : Prop where
  begun : tail ≠ []
  character : ∃ rest, IsCharacter (tail ++ rest)
  length : ∀ rest, IsCharacter (tail ++ rest) → rest.length = n

/-- What a state says of the bytes that led to it. -/
structure Owes (bs : Bytes) (p : Partial) : Prop where
  begins : Begins bs
  boundary : p.owed = 0 ↔ WellFormed bs
  /-- What comes after the last whole character. -/
  tail : ∃ whole tail, bs = whole ++ tail ∧ WellFormed whole ∧
    (tail = [] ∧ p.owed = 0 ∨ p.owed ≠ 0 ∧ Lacks tail p.owed)
  few : p.owed ≤ 3
  next : p.owed ≠ 0 → ∀ b, Begins (bs ++ [b]) ↔ p.lower ≤ b ∧ b ≤ p.upper
  /-- Between two characters the range is that of any continuation byte. -/
  idle : p.owed = 0 → p.lower = 0x80 ∧ p.upper = 0xBF

theorem isBoundary_iff : p.isBoundary = true ↔ p.owed = 0 := by
  simp [Partial.isBoundary]

/-! ### Rows -/

theorem fits_append {rs ss : List (UInt8 × UInt8)} (fits : Fits rs tail) (more : Fits ss rest) :
    Fits (rs ++ ss) (tail ++ rest) := by
  induction rs generalizing tail with
  | nil =>
    rw [fits_nil_iff.mp fits]
    exact more
  | cons r rs ih =>
    obtain ⟨b, tail, rfl, range, fits⟩ := fits_cons_iff.mp fits
    exact ⟨range, ih fits⟩

/-- The bytes that go on with a character are wanted, after those of it that came in. -/
theorem fits_of_run (ran : run p tail = some q) (fits : Fits p.debts (tail ++ rest)) :
    Fits q.debts rest := by
  induction tail generalizing p with
  | nil =>
    cases ran
    exact fits
  | cons b tail ih =>
    obtain ⟨r, stepped, ran⟩ := Option.bind_eq_some_iff.mp ran
    have inside : p.isBoundary = false := by
      rw [Bool.eq_false_iff]
      intro boundary
      have settled : p.debts = [] := by rw [Partial.debts, isBoundary_iff.mp boundary]
      rw [settled] at fits
      exact fits
    obtain ⟨r', stepped', fits⟩ := step_of_fits inside fits
    cases stepped.symm.trans stepped'
    exact ih ran fits

/-- The bytes after the last whole character are the first ones of a row, and the debt is the rest
    of it. -/
theorem exists_front (reach : run .boundary bs = some p) :
    ∃ whole tail, bs = whole ++ tail ∧ WellFormed whole ∧
      (tail = [] ∧ p.owed = 0 ∨
        tail ≠ [] ∧ p.owed ≠ 0 ∧ ∃ front, Fits front tail ∧ front ++ p.debts ∈ table) := by
  induction bs using List.reverseRecOn generalizing p with
  | nil =>
    cases reach
    exact ⟨[], [], rfl, .nil, .inl ⟨rfl, rfl⟩⟩
  | append_singleton bs b ih =>
    by_cases settled : p.owed = 0
    · have well := (wellFormed_iff_of_run reach).mpr (isBoundary_iff.mpr settled)
      exact ⟨bs ++ [b], [], (List.append_nil _).symm, well, .inl ⟨rfl, settled⟩⟩
    · rw [run_append] at reach
      obtain ⟨q, before, last⟩ := Option.bind_eq_some_iff.mp reach
      obtain ⟨r, stepped, rfl⟩ : ∃ r, q.step b = some r ∧ r = p := by
        simpa [run] using last
      obtain ⟨whole, tail, rfl, well, part⟩ := ih before
      refine ⟨whole, tail ++ [b], List.append_assoc .., well, .inr ⟨by simp, settled, ?_⟩⟩
      rcases part with ⟨rfl, paid⟩ | ⟨-, open_, front, fits, row⟩
      · have leads : Partial.lead b = some r := by simpa only [Partial.step, paid] using stepped
        obtain ⟨range, row, within⟩ := lead_range leads
        exact ⟨[range], ⟨within, trivial⟩, row⟩
      · obtain ⟨n, owed⟩ := Nat.exists_eq_succ_of_ne_zero open_
        obtain ⟨within, rfl⟩ : (q.lower ≤ b ∧ b ≤ q.upper) ∧ ⟨n, 0x80, 0xBF⟩ = r := by
          simpa only [Partial.step, owed, Option.ite_none_right_eq_some, Option.some.injEq]
            using stepped
        refine ⟨front ++ [(q.lower, q.upper)], fits_append fits ⟨within, trivial⟩, ?_⟩
        have debts : q.debts = [(q.lower, q.upper)] ++ List.replicate n (0x80, 0xBF) := by
          rw [Partial.debts, owed]
          rfl
        rwa [List.append_assoc, debts_wanting, ← debts]

/-- The debt is what the last character lacks. -/
theorem lacks_of_front {front : List (UInt8 × UInt8)} (valid : p.Valid)
    (reach : run .boundary tail = some p) (begun : tail ≠ []) (fits : Fits front tail)
    (row : front ++ p.debts ∈ table) : Lacks tail p.owed where
  begun := begun
  character := by
    obtain ⟨-, rest, _, -, paid, -⟩ := valid.pays
    exact ⟨rest, _, row, fits_append fits paid⟩
  length := by
    rintro rest ⟨row, mem, fits⟩
    obtain ⟨b, tail, rfl⟩ := List.exists_cons_of_ne_nil begun
    cases row with
    | nil => cases fits
    | cons r rs =>
      obtain ⟨within, fits⟩ := fits
      obtain ⟨q, leads, rfl⟩ := lead_of_row mem within
      have onward : run q tail = some p := by
        obtain ⟨q', leads', ran⟩ := Option.bind_eq_some_iff.mp reach
        cases leads.symm.trans leads'
        exact ran
      rw [length_of_fits (fits_of_run onward fits), length_debts]

/-! ### States -/

/-- The state that some bytes lead to is what the last character of them lacks, and the range of the
    byte that may follow. -/
theorem owes_of_run (reach : run .boundary bs = some p) : Owes bs p := by
  have valid := valid_of_run valid_boundary reach
  obtain ⟨whole, tail, rfl, well, part⟩ := exists_front reach
  have onward : run .boundary tail = some p := by
    rwa [run_append, run_eq_boundary_iff.mpr well, Option.bind_some] at reach
  constructor
  case begins => exact run_ne_none_iff.mp (by simp [reach])
  case boundary => rw [wellFormed_iff_of_run reach, isBoundary_iff]
  case tail =>
    refine ⟨whole, tail, rfl, well, ?_⟩
    rcases part with none | ⟨begun, owed, front, fits, row⟩
    · exact .inl none
    · exact .inr ⟨owed, lacks_of_front valid onward begun fits row⟩
  case few =>
    rcases part with ⟨-, settled⟩ | ⟨begun, -, front, fits, row⟩
    · rw [settled]
      decide
    · have rows : ∀ row ∈ table, row.length ≤ 4 := by decide
      have size := rows _ row
      have some := List.length_pos_iff.mpr begun
      rw [List.length_append, length_debts, ← length_of_fits fits] at size
      omega
  case next =>
    intro owed b
    obtain ⟨n, owed⟩ := Nat.exists_eq_succ_of_ne_zero owed
    rw [← run_ne_none_iff, run_append, reach]
    simp [run, Partial.step, owed]
  case idle =>
    intro settled
    rw [valid.settled settled]
    exact ⟨rfl, rfl⟩

end WebSocketEngine.Utf8
