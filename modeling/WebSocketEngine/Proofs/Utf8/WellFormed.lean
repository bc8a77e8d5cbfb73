import WebSocketEngine.Utf8.Sequence
import Mathlib.Logic.Basic

/-!
Well-formed UTF-8, as the Unicode table of byte sequences has it, and the byte machine against it.

A row of the table gives the range of each byte of a character.  `WellFormed` strings are characters
one after another, `Begins` says that such a string starts with the given bytes.  The machine ends
between two characters exactly on the well-formed strings (`run_eq_boundary_iff`), and it refuses a
byte exactly where no well-formed string goes on (`run_ne_none_iff`).
-/

namespace WebSocketEngine.Utf8

/-- The ranges that the bytes of a character may lie in, one row for each kind of lead byte. -/
def table : List (List (UInt8 × UInt8)) :=
  [[(0x00, 0x7F)],
    [(0xC2, 0xDF), (0x80, 0xBF)],
    [(0xE0, 0xE0), (0xA0, 0xBF), (0x80, 0xBF)],
    [(0xE1, 0xEC), (0x80, 0xBF), (0x80, 0xBF)],
    [(0xED, 0xED), (0x80, 0x9F), (0x80, 0xBF)],
    [(0xEE, 0xEF), (0x80, 0xBF), (0x80, 0xBF)],
    [(0xF0, 0xF0), (0x90, 0xBF), (0x80, 0xBF), (0x80, 0xBF)],
    [(0xF1, 0xF3), (0x80, 0xBF), (0x80, 0xBF), (0x80, 0xBF)],
    [(0xF4, 0xF4), (0x80, 0x8F), (0x80, 0xBF), (0x80, 0xBF)]]

/-- As many bytes as ranges, each in its own. -/
def Fits : List (UInt8 × UInt8) → Bytes → Prop
  | [], [] => True
  | r :: rs, b :: bs => (r.1 ≤ b ∧ b ≤ r.2) ∧ Fits rs bs
  | _, _ => False

/-- The bytes of one character. -/
def IsCharacter (c : Bytes) : Prop := ∃ row ∈ table, Fits row c

/-- Characters one after another. -/
inductive WellFormed : Bytes → Prop
  | nil : WellFormed []
  | cons {c rest : Bytes} : IsCharacter c → WellFormed rest → WellFormed (c ++ rest)

/-- Some well-formed string starts with these bytes. -/
def Begins (bs : Bytes) : Prop := ∃ rest, WellFormed (bs ++ rest)

theorem WellFormed.begins {bs : Bytes} (h : WellFormed bs) : Begins bs :=
  ⟨[], by rwa [List.append_nil]⟩

theorem Begins.of_append {bs cs : Bytes} : Begins (bs ++ cs) → Begins bs
  | ⟨rest, h⟩ => ⟨cs ++ rest, by rwa [← List.append_assoc]⟩

/-- The bytes before the last few of a string that begins one begin it too. -/
theorem Begins.of_prefix {bs cs : Bytes} (h : Begins cs) (p : bs <+: cs) : Begins bs := by
  obtain ⟨rest, rfl⟩ := p
  exact h.of_append

/-! ### The machine over many bytes -/

/-- The state after a run of bytes; nothing if one of them cannot stand where it does. -/
def run : Partial → Bytes → Option Partial
  | p, [] => some p
  | p, b :: bs => (p.step b).bind (run · bs)

theorem run_append (p : Partial) (bs cs : Bytes) :
    run p (bs ++ cs) = (run p bs).bind (run · cs) := by
  induction bs generalizing p with
  | nil => rfl
  | cons b bs ih =>
    simp only [List.cons_append, run]
    cases p.step b with
    | none => rfl
    | some q => exact ih q

/-- The machine's states: the next range is not empty, and only one state owes nothing. -/
structure Partial.Valid (p : Partial) : Prop where
  range : p.lower ≤ p.upper
  settled : p.owed = 0 → p = .boundary

theorem valid_boundary : Partial.boundary.Valid := ⟨by decide, fun _ => rfl⟩

/-- The lead bytes of each row, and what they open. -/
def openings : List ((UInt8 × UInt8) × Partial) :=
  [((0x00, 0x7F), .boundary), ((0xC2, 0xDF), ⟨1, 0x80, 0xBF⟩), ((0xE0, 0xE0), ⟨2, 0xA0, 0xBF⟩),
    ((0xE1, 0xEC), ⟨2, 0x80, 0xBF⟩), ((0xED, 0xED), ⟨2, 0x80, 0x9F⟩),
    ((0xEE, 0xEF), ⟨2, 0x80, 0xBF⟩), ((0xF0, 0xF0), ⟨3, 0x90, 0xBF⟩),
    ((0xF1, 0xF3), ⟨3, 0x80, 0xBF⟩), ((0xF4, 0xF4), ⟨3, 0x80, 0x8F⟩)]

theorem lead_cases {b : UInt8} {p : Partial} (h : Partial.lead b = some p) :
    ∃ r, (r, p) ∈ openings ∧ r.1 ≤ b ∧ b ≤ r.2 := by
  simp only [Partial.lead, UInt8.le_iff_toNat_le, UInt8.lt_iff_toNat_lt, ← UInt8.toNat_inj,
    UInt8.reduceToNat, ite_eq_iff, Option.some.injEq, reduceCtorEq, and_false, false_or,
    or_false] at h
  simp only [UInt8.le_iff_toNat_le]
  obtain ⟨_, rfl⟩ | ⟨_, _, ⟨_, rfl⟩ | ⟨_, ⟨_, rfl⟩ | ⟨_, ⟨_, rfl⟩ | ⟨_, ⟨_, rfl⟩ | ⟨_, ⟨_, rfl⟩ |
    ⟨_, ⟨_, rfl⟩ | ⟨_, _, rfl⟩⟩⟩⟩⟩⟩⟩ := h
  · exact ⟨(0x00, 0x7F), by decide, by simp only [UInt8.reduceToNat]; omega⟩
  · exact ⟨(0xC2, 0xDF), by decide, by simp only [UInt8.reduceToNat]; omega⟩
  · exact ⟨(0xE0, 0xE0), by decide, by simp only [UInt8.reduceToNat]; omega⟩
  · exact ⟨(0xED, 0xED), by decide, by simp only [UInt8.reduceToNat]; omega⟩
  · rcases Nat.lt_or_ge b.toNat 0xED with below | above
    · exact ⟨(0xE1, 0xEC), by decide, by simp only [UInt8.reduceToNat]; omega⟩
    · exact ⟨(0xEE, 0xEF), by decide, by simp only [UInt8.reduceToNat]; omega⟩
  · exact ⟨(0xF0, 0xF0), by decide, by simp only [UInt8.reduceToNat]; omega⟩
  · exact ⟨(0xF1, 0xF3), by decide, by simp only [UInt8.reduceToNat]; omega⟩
  · exact ⟨(0xF4, 0xF4), by decide, by simp only [UInt8.reduceToNat]; omega⟩

theorem valid_of_lead {b : UInt8} {p : Partial} (h : Partial.lead b = some p) : p.Valid := by
  have all : ∀ x ∈ openings, x.2.lower ≤ x.2.upper ∧ (x.2.owed = 0 → x.2 = .boundary) := by
    decide
  obtain ⟨r, opening, _⟩ := lead_cases h
  obtain ⟨range, settled⟩ := all _ opening
  exact ⟨range, settled⟩

theorem valid_of_step {p q : Partial} {b : UInt8} (h : p.step b = some q) : q.Valid := by
  unfold Partial.step at h
  split at h
  · exact valid_of_lead h
  · split at h
    · cases h
      exact ⟨(by decide : (0x80 : UInt8) ≤ 0xBF), by rintro rfl; rfl⟩
    · cases h

theorem valid_of_run {p q : Partial} {bs : Bytes} (hp : p.Valid) (h : run p bs = some q) :
    q.Valid := by
  induction bs generalizing p with
  | nil => cases h; exact hp
  | cons b bs ih =>
    obtain ⟨r, hr, h⟩ := Option.bind_eq_some_iff.mp h
    exact ih (valid_of_step hr) h

theorem Partial.Valid.eq_boundary {p : Partial} (hp : p.Valid) (h : p.isBoundary = true) :
    p = .boundary :=
  hp.settled (by simpa [Partial.isBoundary] using h)

/-! ### What a state owes -/

/-- The ranges of the bytes that are still wanted. -/
def Partial.debts (p : Partial) : List (UInt8 × UInt8) :=
  match p.owed with
  | 0 => []
  | n + 1 => (p.lower, p.upper) :: List.replicate n (0x80, 0xBF)

theorem debts_wanting (n : Nat) :
    Partial.debts ⟨n, 0x80, 0xBF⟩ = List.replicate n (0x80, 0xBF) := by
  cases n <;> rfl

/-- The bytes settle the debt, and go on with whole characters. -/
def Pays (p : Partial) (bs : Bytes) : Prop :=
  ∃ tail rest, bs = tail ++ rest ∧ Fits p.debts tail ∧ WellFormed rest

theorem fits_nil_iff {c : Bytes} : Fits [] c ↔ c = [] := by
  cases c <;> simp [Fits]

theorem fits_cons_iff {r : UInt8 × UInt8} {rs : List (UInt8 × UInt8)} {c : Bytes} :
    Fits (r :: rs) c ↔ ∃ b bs, c = b :: bs ∧ (r.1 ≤ b ∧ b ≤ r.2) ∧ Fits rs bs := by
  cases c with
  | nil => simp [Fits]
  | cons b bs =>
    constructor
    · intro fits
      exact ⟨b, bs, rfl, fits⟩
    · rintro ⟨_, _, h, fits⟩
      cases h
      exact fits

theorem length_of_fits {rs : List (UInt8 × UInt8)} {tail : Bytes} (fits : Fits rs tail) :
    tail.length = rs.length := by
  induction rs generalizing tail with
  | nil => rw [fits_nil_iff.mp fits]; rfl
  | cons r rs ih =>
    obtain ⟨b, tail, rfl, -, fits⟩ := fits_cons_iff.mp fits
    rw [List.length_cons, ih fits, List.length_cons]

theorem length_debts (p : Partial) : p.debts.length = p.owed := by
  unfold Partial.debts
  split
  · next none => rw [none]; rfl
  · next n owed => rw [owed, List.length_cons, List.length_replicate]

/-- A byte in the wanted range pays one byte of the debt. -/
theorem step_of_fits {p : Partial} {b : UInt8} {tail : Bytes} (inside : p.isBoundary = false)
    (fits : Fits p.debts (b :: tail)) : ∃ q, p.step b = some q ∧ Fits q.debts tail := by
  cases owed : p.owed with
  | zero =>
    rw [Partial.isBoundary, owed] at inside
    cases inside
  | succ n =>
    have debts : p.debts = (p.lower, p.upper) :: List.replicate n (0x80, 0xBF) := by
      rw [Partial.debts, owed]
    rw [debts] at fits
    obtain ⟨range, fits⟩ := fits
    refine ⟨⟨n, 0x80, 0xBF⟩, ?_, by rwa [debts_wanting]⟩
    rw [Partial.step, owed]
    exact if_pos range

theorem pays_of_settled {p : Partial} (h : p.owed = 0) {bs : Bytes} :
    Pays p bs ↔ WellFormed bs := by
  have none : p.debts = [] := by simp [Partial.debts, h]
  unfold Pays
  rw [none]
  constructor
  · rintro ⟨tail, rest, rfl, fits, well⟩
    rw [fits_nil_iff.mp fits]
    exact well
  · intro well
    exact ⟨[], bs, rfl, trivial, well⟩

theorem lead_range {b : UInt8} {p : Partial} (h : Partial.lead b = some p) :
    ∃ r, (r :: p.debts) ∈ table ∧ r.1 ≤ b ∧ b ≤ r.2 := by
  have rows : ∀ x ∈ openings, (x.1 :: x.2.debts) ∈ table := by decide
  obtain ⟨r, opening, range⟩ := lead_cases h
  exact ⟨r, rows _ opening, range⟩

theorem lead_of_row {r : UInt8 × UInt8} {rs : List (UInt8 × UInt8)} {b : UInt8}
    (row : r :: rs ∈ table) (range : r.1 ≤ b ∧ b ≤ r.2) :
    ∃ p, Partial.lead b = some p ∧ p.debts = rs := by
  simp only [UInt8.le_iff_toNat_le] at range
  simp only [table, List.mem_cons, List.not_mem_nil, or_false, List.cons.injEq] at row
  simp only [Partial.lead, UInt8.le_iff_toNat_le, UInt8.lt_iff_toNat_lt, ← UInt8.toNat_inj]
  -- The range of the lead byte decides every test on the way to the row's own branch.
  rcases row with h | h | h | h | h | h | h | h | h
  all_goals
    obtain ⟨rfl, rfl⟩ := h
    simp only [UInt8.reduceToNat] at range ⊢
    simp (disch := omega) only [if_pos, if_neg]
    exact ⟨_, rfl, rfl⟩

/-- A well-formed string, read off its first byte. -/
theorem wellFormed_cons {b : UInt8} {bs : Bytes} :
    WellFormed (b :: bs) ↔ ∃ p, Partial.lead b = some p ∧ Pays p bs := by
  constructor
  · intro h
    generalize whole : b :: bs = cs at h
    cases h with
    | nil => cases whole
    | @cons c rest character well =>
      obtain ⟨row, mem, fits⟩ := character
      cases row with
      | nil => exact absurd mem (by decide)
      | cons r rs =>
        obtain ⟨b', tail, rfl, range, fits⟩ := fits_cons_iff.mp fits
        cases whole
        obtain ⟨p, lead, debts⟩ := lead_of_row mem range
        exact ⟨p, lead, tail, rest, rfl, by rwa [debts], well⟩
  · rintro ⟨p, lead, tail, rest, rfl, fits, well⟩
    obtain ⟨r, mem, range⟩ := lead_range lead
    exact .cons (c := b :: tail) ⟨_, mem, range, fits⟩ well

theorem pays_cons {p : Partial} {b : UInt8} {bs : Bytes} :
    Pays p (b :: bs) ↔ ∃ q, p.step b = some q ∧ Pays q bs := by
  cases owed : p.owed with
  | zero =>
    rw [pays_of_settled owed, wellFormed_cons]
    simp only [Partial.step, owed]
  | succ n =>
    have debts : p.debts = (p.lower, p.upper) :: List.replicate n (0x80, 0xBF) := by
      simp [Partial.debts, owed]
    simp only [Partial.step, owed]
    constructor
    · rintro ⟨tail, rest, whole, fits, well⟩
      rw [debts, fits_cons_iff] at fits
      obtain ⟨b', tail, rfl, range, fits⟩ := fits
      cases whole
      exact ⟨_, if_pos range, tail, rest, rfl, by rwa [debts_wanting], well⟩
    · rintro ⟨q, step, tail, rest, rfl, fits, well⟩
      split at step
      · next range =>
        cases step
        rw [debts_wanting] at fits
        exact ⟨b :: tail, rest, rfl, by rw [debts]; exact ⟨range, fits⟩, well⟩
      · cases step

/-! ### The machine and the table agree -/

theorem run_isBoundary_iff {p : Partial} {bs : Bytes} :
    (∃ q, run p bs = some q ∧ q.isBoundary = true) ↔ Pays p bs := by
  induction bs generalizing p with
  | nil =>
    simp only [run, Option.some.injEq, exists_eq_left', Partial.isBoundary, beq_iff_eq]
    constructor
    · intro owed
      exact (pays_of_settled owed).mpr .nil
    · rintro ⟨tail, rest, whole, fits, -⟩
      obtain ⟨rfl, rfl⟩ := List.append_eq_nil_iff.mp whole.symm
      cases owed : p.owed with
      | zero => rfl
      | succ n => simp [Partial.debts, owed, Fits] at fits
  | cons b bs ih =>
    rw [pays_cons]
    simp only [run, Option.bind_eq_some_iff]
    constructor
    · rintro ⟨q, ⟨r, step, rest⟩, boundary⟩
      exact ⟨r, step, ih.mp ⟨q, rest, boundary⟩⟩
    · rintro ⟨r, step, pays⟩
      obtain ⟨q, rest, boundary⟩ := ih.mpr pays
      exact ⟨q, ⟨r, step, rest⟩, boundary⟩

/-- The machine ends between two characters exactly on the well-formed strings. -/
theorem run_eq_boundary_iff {bs : Bytes} :
    run .boundary bs = some .boundary ↔ WellFormed bs := by
  rw [← pays_of_settled (p := .boundary) rfl, ← run_isBoundary_iff]
  constructor
  · intro h
    exact ⟨_, h, rfl⟩
  · rintro ⟨q, h, boundary⟩
    rwa [(valid_of_run valid_boundary h).eq_boundary boundary] at h

/-- Every state can be brought back between two characters. -/
theorem Partial.Valid.pays {p : Partial} (hp : p.Valid) : ∃ bs, Pays p bs := by
  have fits : ∀ rs : List (UInt8 × UInt8), (∀ r ∈ rs, r.1 ≤ r.2) → Fits rs (rs.map (·.1)) := by
    intro rs
    induction rs with
    | nil => intro _; trivial
    | cons r rs ih =>
      intro h
      exact ⟨⟨UInt8.le_refl _, h r (by simp)⟩, ih fun s hs => h s (by simp [hs])⟩
  refine ⟨p.debts.map (·.1), p.debts.map (·.1), [], by simp, fits _ ?_, .nil⟩
  intro r hr
  unfold Partial.debts at hr
  split at hr
  · cases hr
  · rcases List.mem_cons.mp hr with rfl | hr
    · exact hp.range
    · rw [(List.mem_replicate.mp hr).2]
      decide

/-- The machine goes on exactly as long as some well-formed string does. -/
theorem run_ne_none_iff {bs : Bytes} : run .boundary bs ≠ none ↔ Begins bs := by
  constructor
  · intro h
    obtain ⟨p, hp⟩ := Option.ne_none_iff_exists'.mp h
    obtain ⟨rest, pays⟩ := (valid_of_run valid_boundary hp).pays
    obtain ⟨q, hq, boundary⟩ := run_isBoundary_iff.mpr pays
    refine ⟨rest, (pays_of_settled (p := .boundary) rfl).mp ?_⟩
    refine run_isBoundary_iff.mp ⟨q, ?_, boundary⟩
    rw [run_append, hp]
    exact hq
  · rintro ⟨rest, well⟩ none
    rw [← run_eq_boundary_iff, run_append, none] at well
    cases well

theorem run_eq_none_iff {bs : Bytes} : run .boundary bs = none ↔ ¬ Begins bs := by
  rw [← run_ne_none_iff, ne_eq, Decidable.not_not]

instance : DecidablePred WellFormed := fun bs =>
  decidable_of_iff (run .boundary bs = some .boundary) run_eq_boundary_iff

instance : DecidablePred Begins := fun bs =>
  decidable_of_iff (run .boundary bs ≠ none) run_ne_none_iff

end WebSocketEngine.Utf8
