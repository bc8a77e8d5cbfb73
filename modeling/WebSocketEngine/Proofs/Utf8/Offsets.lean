import WebSocketEngine.Proofs.Utf8.Chunks
import Mathlib.Data.List.Induction

/-!
Where a message is refused.

A message that is no UTF-8 breaks at one byte: it is the first one after which no well-formed string
goes on.  The character that breaks there may have begun some bytes earlier.

    … whole characters │ E0   A0   41 …
                     start        index

Both are facts about the bytes alone (`Breaks.unique`), but which of the two is reported depends on
the cuts.  If the character has begun in an earlier chunk it is paid off byte by byte, and the byte
at `index` is reported; if it has begun in the chunk in which it breaks, that chunk is judged at
once, and `start` is reported (`offset_of_chunks`).
-/

namespace WebSocketEngine.Utf8

variable {bs cs seen rest : Bytes} {p q : Partial} {b : UInt8} {start index : Nat}

theorem run_concat (reach : run .boundary seen = some p) (step : p.step b = some q) :
    run .boundary (seen ++ [b]) = some q := by
  simp [run_append, reach, run, step]

theorem wellFormed_iff_of_run (reach : run .boundary seen = some p) :
    WellFormed seen ↔ p.isBoundary = true := by
  rw [← run_eq_boundary_iff, reach]
  constructor
  · intro settled
    cases settled
    rfl
  · intro boundary
    rw [(valid_of_run valid_boundary reach).eq_boundary boundary]

/-! ### The character in hand -/

/-- The last whole character ends at `start`, so that the one in hand begins there. -/
structure Open (bs : Bytes) (start : Nat) : Prop where
  le : start ≤ bs.length
  whole : WellFormed (bs.take start)
  inside : ∀ k, start < k → k ≤ bs.length → ¬ WellFormed (bs.take k)

theorem open_of_wellFormed (well : WellFormed bs) : Open bs bs.length where
  le := Nat.le_refl _
  whole := by rwa [List.take_length]
  inside := by
    intro k above below
    omega

theorem Open.concat (opened : Open bs start) (inside : ¬ WellFormed (bs ++ [b])) :
    Open (bs ++ [b]) start where
  le := by
    have := opened.le
    simp
    omega
  whole := by
    rw [List.take_append_of_le_length opened.le]
    exact opened.whole
  inside := by
    intro k above below
    rcases Nat.lt_or_ge bs.length k with last | before
    · rwa [List.take_of_length_le (by simp; omega)]
    · rw [List.take_append_of_le_length before]
      exact opened.inside k above before

theorem exists_open (bs : Bytes) : ∃ start, Open bs start := by
  induction bs using List.reverseRecOn with
  | nil => exact ⟨0, open_of_wellFormed .nil⟩
  | append_singleton bs b ih =>
    by_cases well : WellFormed (bs ++ [b])
    · exact ⟨_, open_of_wellFormed well⟩
    · obtain ⟨start, opened⟩ := ih
      exact ⟨start, opened.concat well⟩

theorem Open.unique {other : Nat} (opened : Open bs start) (another : Open bs other) :
    start = other := by
  rcases Nat.lt_trichotomy start other with less | same | more
  · exact (opened.inside other less another.le another.whole).elim
  · exact same
  · exact (another.inside start more opened.le opened.whole).elim

/-! ### Whole characters in front -/

theorem wellFormed_append_iff (well : WellFormed bs) : WellFormed (bs ++ cs) ↔ WellFormed cs := by
  rw [← run_eq_boundary_iff, run_append, run_eq_boundary_iff.mpr well, Option.bind_some,
    run_eq_boundary_iff]

theorem begins_append_iff (well : WellFormed bs) : Begins (bs ++ cs) ↔ Begins cs := by
  rw [← run_ne_none_iff, run_append, run_eq_boundary_iff.mpr well, Option.bind_some,
    run_ne_none_iff]

theorem Open.prepend (well : WellFormed bs) (opened : Open cs start) :
    Open (bs ++ cs) (bs.length + start) where
  le := by
    have := opened.le
    simp
    omega
  whole := by
    rw [List.take_length_add_append, wellFormed_append_iff well]
    exact opened.whole
  inside := by
    intro k above below
    obtain ⟨k, rfl⟩ := Nat.exists_eq_add_of_le (Nat.le_of_add_right_le (Nat.le_of_lt above))
    rw [List.length_append] at below
    rw [List.take_length_add_append, wellFormed_append_iff well]
    exact opened.inside k (by omega) (by omega)

/-! ### The byte that breaks -/

/-- The byte at `index` is the first one after which no well-formed string goes on, and the
    character that breaks there began at `start`. -/
structure Breaks (bs : Bytes) (start index : Nat) : Prop where
  before : Begins (bs.take index)
  broken : ¬ Begins (bs.take (index + 1))
  opened : Open (bs.take index) start

theorem Breaks.lt_length (breaks : Breaks bs start index) : index < bs.length := by
  by_contra long
  apply breaks.broken
  rw [List.take_of_length_le (by omega)]
  rw [← List.take_of_length_le (Nat.not_lt.mp long)]
  exact breaks.before

theorem Breaks.start_le (breaks : Breaks bs start index) : start ≤ index := by
  have := breaks.opened.le
  rw [List.length_take] at this
  omega

/-- Bytes that a well-formed string begins with come to an end before the byte that breaks. -/
theorem Breaks.length_le (breaks : Breaks (bs ++ cs) start index) (begins : Begins bs) :
    bs.length ≤ index := by
  by_contra short
  apply breaks.broken
  rw [List.take_append_of_le_length (by omega)]
  exact begins.of_prefix (List.take_prefix _ _)

theorem Breaks.index_le {other late : Nat} (breaks : Breaks bs start index)
    (another : Breaks bs other late) : late ≤ index := by
  by_contra more
  exact breaks.broken (another.before.of_prefix (List.take_prefix_take_left (by omega)))

theorem Breaks.unique {other late : Nat} (breaks : Breaks bs start index)
    (another : Breaks bs other late) : start = other ∧ index = late := by
  obtain rfl : index = late := Nat.le_antisymm (another.index_le breaks) (breaks.index_le another)
  exact ⟨breaks.opened.unique another.opened, rfl⟩

theorem Breaks.append (breaks : Breaks bs start index) (cs : Bytes) :
    Breaks (bs ++ cs) start index := by
  have within := breaks.lt_length
  constructor
  · rw [List.take_append_of_le_length (by omega)]
    exact breaks.before
  · rw [List.take_append_of_le_length (by omega)]
    exact breaks.broken
  · rw [List.take_append_of_le_length (by omega)]
    exact breaks.opened

theorem Breaks.of_append (breaks : Breaks (bs ++ cs) start index) (within : index < bs.length) :
    Breaks bs start index := by
  obtain ⟨before, broken, opened⟩ := breaks
  rw [List.take_append_of_le_length (by omega)] at before broken opened
  exact ⟨before, broken, opened⟩

theorem Breaks.prepend (well : WellFormed bs) (breaks : Breaks cs start index) :
    Breaks (bs ++ cs) (bs.length + start) (bs.length + index) where
  before := by
    rw [List.take_length_add_append, begins_append_iff well]
    exact breaks.before
  broken := by
    rw [Nat.add_assoc, List.take_length_add_append, begins_append_iff well]
    exact breaks.broken
  opened := by
    rw [List.take_length_add_append]
    exact breaks.opened.prepend well

/-- A message breaks where the machine cannot go on. -/
theorem breaks_of_step (reach : run .boundary seen = some p) (opened : Open seen start)
    (step : p.step b = none) : Breaks (seen ++ b :: rest) start seen.length := by
  have upTo : (seen ++ b :: rest).take (seen.length + 1) = seen ++ [b] := by
    rw [List.take_length_add_append, List.take_succ_cons, List.take_zero]
  constructor
  · rw [List.take_left]
    exact run_ne_none_iff.mp (by simp [reach])
  · rw [upTo]
    exact run_eq_none_iff.mp (by simp [run_append, reach, run, step])
  · rwa [List.take_left]

theorem exists_breaks (broken : ¬ Begins bs) : ∃ start index, Breaks bs start index := by
  induction bs using List.reverseRecOn with
  | nil => exact (broken WellFormed.nil.begins).elim
  | append_singleton bs b ih =>
    by_cases begins : Begins bs
    · obtain ⟨start, opened⟩ := exists_open bs
      refine ⟨start, bs.length, ?_, ?_, ?_⟩
      · rwa [List.take_left]
      · rwa [List.take_of_length_le (by simp)]
      · rwa [List.take_left]
    · obtain ⟨start, index, breaks⟩ := ih begins
      exact ⟨start, index, breaks.append [b]⟩

/-! ### The mechanisms -/

/-- A fault that no further bytes can mend stands at the start of the character that breaks. -/
theorem breaks_of_faultFrom {n width : Nat} (reach : run .boundary seen = some p)
    (opened : Open seen start) (size : start + n = seen.length) {first : Nat}
    (found : faultFrom p start n rest = some (.malformed first width)) :
    ∃ index, Breaks (seen ++ rest) first index := by
  induction rest generalizing seen p start n with
  | nil =>
    rw [faultFrom] at found
    split at found <;> cases found
  | cons b rest ih =>
    rw [faultFrom] at found
    cases step : p.step b with
    | none =>
      rw [step] at found
      cases found
      exact ⟨_, breaks_of_step reach opened step⟩
    | some q =>
      have onward : run .boundary (seen ++ [b]) = some q := run_concat reach step
      have length : (seen ++ [b]).length = seen.length + 1 := by simp
      have whole_iff := wellFormed_iff_of_run onward
      rw [step] at found
      dsimp only at found
      rw [List.append_cons]
      split at found
      · next boundary =>
        have begun := open_of_wellFormed (whole_iff.mpr boundary)
        rw [length, ← size] at begun
        exact ih onward begun (by omega) found
      · next inside => exact ih onward (opened.concat (mt whole_iff.mp inside)) (by omega) found

theorem breaks_of_fault? {width : Nat} (found : fault? bs = some (.malformed start width)) :
    ∃ index, Breaks bs start index :=
  breaks_of_faultFrom rfl (open_of_wellFormed .nil) rfl found

namespace Validator

theorem settle_of_boundary {i : Nat} (boundary : p.isBoundary = true) :
    settle p i bs = .ok (p, bs, i) := by
  cases bs with
  | nil => rfl
  | cons b bs => rw [settle, if_pos boundary]

theorem settle_length {i j : Nat} (settled : settle p i bs = .ok (q, rest, j)) :
    rest.length + j = i + bs.length := by
  induction bs generalizing p i with
  | nil =>
    cases settled
    simp
  | cons b bs ih =>
    rw [settle] at settled
    split at settled
    · cases settled
      exact Nat.add_comm _ _
    · split at settled
      · cases settled
      · have := ih settled
        simp
        omega

/-- The bytes that pay off an open character, as many as are counted. -/
theorem settle_used {j : Nat} (settled : settle p 0 bs = .ok (q, rest, j)) :
    ∃ used, bs = used ++ rest ∧ j = used.length ∧ run p used = some q ∧
      (q.isBoundary = true ∨ rest = []) := by
  obtain ⟨used, rfl, ran, done⟩ := settle_ok settled
  have length := settle_length settled
  rw [List.length_append] at length
  exact ⟨used, rfl, by omega, ran, done⟩

/-- An open character is refused at the byte that breaks it. -/
theorem breaks_of_settle {i j : Nat} (reach : run .boundary seen = some p)
    (opened : Open seen start) (refused : settle p i bs = .error (j, q)) :
    start < seen.length ∧ ∃ k, j = i + k ∧ Breaks (seen ++ bs) start (seen.length + k) := by
  induction bs generalizing seen p i with
  | nil => cases refused
  | cons b bs ih =>
    have inside : ¬ p.isBoundary = true := by
      intro boundary
      rw [settle_of_boundary boundary] at refused
      cases refused
    rw [settle, if_neg inside] at refused
    constructor
    · refine Nat.lt_of_le_of_ne opened.le ?_
      rintro rfl
      have well := opened.whole
      rw [List.take_length] at well
      exact inside ((wellFormed_iff_of_run reach).mp well)
    · cases step : p.step b with
      | none =>
        rw [step] at refused
        cases refused
        exact ⟨0, rfl, breaks_of_step reach opened step⟩
      | some r =>
        have onward : run .boundary (seen ++ [b]) = some r := run_concat reach step
        rw [step] at refused
        dsimp only at refused
        -- If the character were whole by now, the rest would not be refused here.
        have still : ¬ WellFormed (seen ++ [b]) := by
          intro well
          rw [settle_of_boundary ((wellFormed_iff_of_run onward).mp well)] at refused
          cases refused
        obtain ⟨-, k, rfl, breaks⟩ := ih onward (opened.concat still) refused
        refine ⟨k + 1, by omega, ?_⟩
        have further : seen.length + (k + 1) = (seen ++ [b]).length + k := by
          simp
          omega
        rw [List.append_cons, further]
        exact breaks

/-! ### One chunk -/

/-- The chunk in which a message breaks is refused at the byte that breaks, if the character has
    begun in an earlier chunk, and otherwise at the start of the character. -/
theorem feed_of_breaks {v : Validator} {chunk : Bytes} (reach : run .boundary seen = some v.part)
    (count : v.consumed = seen.length) (breaks : Breaks (seen ++ chunk) start index) :
    (v.feed chunk).2 = .error (.invalid (if start < seen.length then index else start)) := by
  have broken : run v.part chunk = none := by
    have whole : ¬ Begins (seen ++ chunk) := by
      intro begins
      exact breaks.broken (begins.of_prefix (List.take_prefix _ _))
    rw [← run_eq_none_iff, run_append, reach] at whole
    exact whole
  unfold feed
  cases settled : settle v.part 0 chunk with
  | error e =>
    obtain ⟨j, q⟩ := e
    obtain ⟨begun, opened⟩ := exists_open seen
    obtain ⟨early, k, rfl, found⟩ := breaks_of_settle reach opened settled
    obtain ⟨rfl, rfl⟩ := breaks.unique found
    rw [if_pos early, count, Nat.zero_add]
  | ok result =>
    obtain ⟨p, rest, j⟩ := result
    obtain ⟨used, rfl, rfl, ran, done⟩ := settle_used settled
    rw [run_append, ran, Option.bind_some] at broken
    rcases done with boundary | rfl
    · have onward : run .boundary (seen ++ used) = some p := by rw [run_append, reach]; exact ran
      obtain rfl := (valid_of_run valid_boundary onward).eq_boundary boundary
      have well : WellFormed (seen ++ used) := run_eq_boundary_iff.mp onward
      have judged := judged_fault? rest
      cases fault : fault? rest with
      | none =>
        rw [fault] at judged
        exact (run_eq_none_iff.mp broken judged.begins).elim
      | some f =>
        rw [fault] at judged
        cases f with
        | malformed first width =>
          obtain ⟨i, found⟩ := breaks_of_fault? fault
          rw [← List.append_assoc] at breaks
          obtain ⟨rfl, rfl⟩ := breaks.unique (found.prepend well)
          have length : (seen ++ used).length = seen.length + used.length := List.length_append
          rw [length, if_neg (by omega), count]
          dsimp only
          rw [fault]
        | cut first => exact (run_eq_none_iff.mp broken judged.2.1).elim
    · cases broken

/-! ### All chunks -/

/-- Where the chunk begins that holds the byte at `index`. -/
def chunkStart : List Bytes → Nat → Nat
  | [], _ => 0
  | c :: cs, index => if index < c.length then 0 else c.length + chunkStart cs (index - c.length)

theorem validate_of_refused {v : Validator} {c : Bytes} {e : Refusal}
    (refused : (v.feed c).2 = .error e) (cs : List Bytes) : v.validate (c :: cs) = .error e := by
  rw [validate]
  cases fed : v.feed c with
  | mk w answer =>
    rw [fed] at refused
    cases refused
    rfl

theorem validate_of_breaks {v : Validator} {chunks : List Bytes}
    (reach : run .boundary seen = some v.part) (count : v.consumed = seen.length)
    (breaks : Breaks (seen ++ chunks.flatten) start index) :
    v.validate chunks = .error (.invalid
      (if start < seen.length + chunkStart chunks (index - seen.length) then index else start)) := by
  have begins : Begins seen := run_ne_none_iff.mp (by simp [reach])
  induction chunks generalizing v seen with
  | nil =>
    have := breaks.lt_length
    have := breaks.length_le begins
    simp at *
    omega
  | cons c cs ih =>
    have reached := breaks.length_le begins
    rw [List.flatten_cons, ← List.append_assoc] at breaks
    by_cases onward : Begins (seen ++ c)
    · obtain ⟨q, hq⟩ := Option.ne_none_iff_exists'.mp (run_ne_none_iff.mpr onward)
      have ran : run v.part c = some q := by
        rw [run_append, reach] at hq
        exact hq
      have past := breaks.length_le onward
      rw [List.length_append] at past
      have later := ih (v := ⟨q, v.consumed + c.length⟩) hq (by simp [count]) breaks onward
      have there : seen.length + chunkStart (c :: cs) (index - seen.length) =
          (seen ++ c).length + chunkStart cs (index - (seen ++ c).length) := by
        rw [chunkStart, if_neg (by omega), List.length_append, Nat.sub_sub, Nat.add_assoc]
      rw [validate, feed_of_run (valid_of_run valid_boundary reach) ran, there]
      exact later
    · obtain ⟨s, i, here⟩ := exists_breaks onward
      obtain ⟨rfl, rfl⟩ := breaks.unique (here.append _)
      have within := here.lt_length
      rw [List.length_append] at within
      have refused := feed_of_breaks reach count here
      have there : chunkStart (c :: cs) (index - seen.length) = 0 := by
        rw [chunkStart, if_pos (by omega)]
      rw [there, Nat.add_zero]
      exact validate_of_refused refused cs

theorem chunkStart_singletons (bs : Bytes) (le : index ≤ bs.length) :
    chunkStart (bs.map ([·])) index = index := by
  induction bs generalizing index with
  | nil => exact (Nat.le_zero.mp le).symm
  | cons b bs ih =>
    rw [List.map_cons, chunkStart]
    cases index with
    | zero => rfl
    | succ index =>
      rw [if_neg (by simp)]
      have := ih (Nat.le_of_succ_le_succ le)
      simp [this, Nat.add_comm]

/-- A message that no well-formed string begins with breaks at one byte, wherever it is cut.  That
    byte is reported if its character has begun in an earlier chunk, or begins with it; otherwise the
    start of the character is.  So byte by byte it is always the byte that breaks, and in one piece
    always the start. -/
theorem offset_of_chunks {chunks : List Bytes} (broken : ¬ Begins chunks.flatten) :
    ∃ start index, Breaks chunks.flatten start index ∧
      (∀ s i, Breaks chunks.flatten s i → s = start ∧ i = index) ∧
      fresh.validate chunks =
        .error (.invalid (if start < chunkStart chunks index then index else start)) ∧
      (fresh.validate chunks = .error (.invalid index) ↔
        start < chunkStart chunks index ∨ start = index) ∧
      fresh.validate (chunks.flatten.map ([·])) = .error (.invalid index) ∧
      fresh.validate [chunks.flatten] = .error (.invalid start) := by
  obtain ⟨start, index, breaks⟩ := exists_breaks broken
  have reported : ∀ pieces : List Bytes, pieces.flatten = chunks.flatten →
      fresh.validate pieces =
        .error (.invalid (if start < chunkStart pieces index then index else start)) := by
    intro pieces same
    rw [← same] at breaks
    simpa using @validate_of_breaks [] start index fresh pieces rfl rfl breaks
  have bound := breaks.lt_length
  refine ⟨start, index, breaks, ?unique, reported chunks rfl, ?right, ?bytewise, ?whole⟩
  case unique =>
    intro s i another
    exact another.unique breaks
  case right =>
    rw [reported chunks rfl]
    by_cases early : start < chunkStart chunks index <;> simp [early]
  case bytewise =>
    have pieces : ∀ bs : Bytes, (bs.map ([·])).flatten = bs := List.flatMap_singleton'
    rw [reported _ (pieces _), chunkStart_singletons _ (Nat.le_of_lt bound)]
    by_cases early : start < index
    · rw [if_pos early]
    · rw [if_neg early, Nat.le_antisymm breaks.start_le (Nat.not_lt.mp early)]
  case whole =>
    rw [reported [chunks.flatten] (by simp), chunkStart, if_pos bound, if_neg (Nat.not_lt_zero _)]

theorem offset_of_cut_character :
    ¬ Begins [[0x61, 0xE0], [0x80]].flatten ∧ ∃ start index,
      Breaks [0x61, 0xE0, 0x80] start index ∧
      fresh.validate [[0x61], [0xE0], [0x80]] = .error (.invalid index) ∧
      fresh.validate [[0x61, 0xE0, 0x80]] = .error (.invalid start) := by
  have broken : ¬ Begins [[0x61, 0xE0], [0x80]].flatten := by decide
  obtain ⟨start, index, breaks, -, -, -, bytewise, whole⟩ := offset_of_chunks broken
  exact ⟨broken, start, index, breaks, bytewise, whole⟩

/-- The second byte breaks the character, and is reported only if there is a cut before it. -/
theorem offset_depends_on_cuts :
    Begins [0xE0] ∧ ¬ Begins [0xE0, 0x80] ∧
      fresh.validate [[0xE0, 0x80]] = .error (.invalid 0) ∧
      fresh.validate [[0xE0], [0x80]] = .error (.invalid 1) := by
  decide

end Validator

end WebSocketEngine.Utf8
