import WebSocketEngine.Proofs.Utf8.Text
import WebSocketEngine.Utf8.Validator

/-!
A message in chunks, and the validator that reads them.

A chunk passes through three mechanisms: the open character is paid off byte by byte, the rest is
judged at once, and a character cut off at the end is carried over.  All three come to the same as
running the machine over the chunk (`feed_of_run`, `feed_of_refused`).  So the validator refuses the
first chunk after which no well-formed string begins with the bytes so far, and where the cuts are
plays no part (`answers_of_chunks`).
-/

namespace WebSocketEngine.Utf8.Validator

/-- The validator after some chunks. -/
def after (v : Validator) (chunks : List Bytes) : Validator :=
  chunks.foldl (fun v c => (v.feed c).1) v

/-- The answers to chunks that are fed one after another. -/
def answers (v : Validator) : List Bytes → List (Except Refusal Unit)
  | [] => []
  | c :: cs => (v.feed c).2 :: answers (v.feed c).1 cs

/-- A whole message: its chunks until one is refused, and then its end. -/
def validate (v : Validator) : List Bytes → Except Refusal Unit
  | [] => v.finish.2
  | c :: cs =>
    match v.feed c with
    | (_, .error e) => .error e
    | (w, .ok _) => validate w cs

/-! ### The three mechanisms -/

theorem settle_ok {p q : Partial} {bs rest : Bytes} {i j : Nat}
    (h : settle p i bs = .ok (q, rest, j)) :
    ∃ used, bs = used ++ rest ∧ run p used = some q ∧ (q.isBoundary = true ∨ rest = []) := by
  induction bs generalizing p i with
  | nil =>
    cases h
    exact ⟨[], rfl, rfl, .inr rfl⟩
  | cons b bs ih =>
    rw [settle] at h
    split at h
    · next boundary =>
      cases h
      exact ⟨[], rfl, rfl, .inl boundary⟩
    · split at h
      · cases h
      · next r step =>
        obtain ⟨used, rfl, ran, done⟩ := ih h
        exact ⟨b :: used, rfl, by rw [run, step]; exact ran, done⟩

theorem settle_error {p : Partial} {bs : Bytes} {i : Nat} {e : Nat × Partial}
    (h : settle p i bs = .error e) : run p bs = none := by
  induction bs generalizing p i with
  | nil => cases h
  | cons b bs ih =>
    rw [settle] at h
    split at h
    · cases h
    · split at h
      · next step => rw [run, step]; rfl
      · next r step =>
        rw [run, step]
        exact ih h

theorem carry_of_run {p q : Partial} {bs : Bytes} {i : Nat} (h : run p bs = some q) :
    carry p i bs = .ok q := by
  induction bs generalizing p i with
  | nil => cases h; rfl
  | cons b bs ih =>
    obtain ⟨r, step, h⟩ := Option.bind_eq_some_iff.mp h
    rw [carry, step]
    exact ih h

/-- A character that is cut off is carried over. -/
theorem exists_carry_of_cut {rest : Bytes} {start : Nat} (cut : fault? rest = some (.cut start)) :
    ∃ q, run .boundary rest = some q ∧
      ∀ i, carry .boundary i (rest.drop start) = .ok q := by
  have judged := judged_fault? rest
  rw [cut] at judged
  obtain ⟨q, ran⟩ := Option.ne_none_iff_exists'.mp (run_ne_none_iff.mpr judged.2.1)
  -- Whole characters come first, so the tail alone leads where all of the rest does.
  have tail : run .boundary (rest.drop start) = some q := by
    rw [← List.take_append_drop start rest, run_append, run_eq_boundary_iff.mpr judged.1] at ran
    exact ran
  exact ⟨q, ran, fun _ => carry_of_run tail⟩

/-! ### One chunk -/

/-- A chunk is accepted if the machine can read it, and leaves the machine's state; otherwise it is
    refused. -/
theorem feed_spec {v : Validator} (hv : v.part.Valid) (chunk : Bytes) :
    (∃ q, run v.part chunk = some q ∧ v.feed chunk = (⟨q, v.consumed + chunk.length⟩, .ok ())) ∨
      run v.part chunk = none ∧ ∃ offset, (v.feed chunk).2 = .error (.invalid offset) := by
  unfold feed
  cases settled : settle v.part 0 chunk with
  | error e => exact .inr ⟨settle_error settled, _, rfl⟩
  | ok result =>
    obtain ⟨p, rest, index⟩ := result
    obtain ⟨used, whole, ran, done⟩ := settle_ok settled
    have onward : run v.part chunk = run p rest := by rw [whole, run_append, ran, Option.bind_some]
    rw [onward]
    dsimp only
    rcases done with boundary | none
    · rw [(valid_of_run hv ran).eq_boundary boundary]
      have judged := judged_fault? rest
      cases fault : fault? rest with
      | none =>
        rw [fault] at judged
        exact .inl ⟨_, run_eq_boundary_iff.mpr judged, rfl⟩
      | some f =>
        rw [fault] at judged
        cases f with
        | malformed i w => exact .inr ⟨run_eq_none_iff.mpr judged.2, _, rfl⟩
        | cut start =>
          obtain ⟨q, hq, carried⟩ := exists_carry_of_cut fault
          exact .inl ⟨q, hq, by dsimp only; rw [carried]⟩
    · rw [none]
      exact .inl ⟨p, rfl, rfl⟩

theorem feed_of_run {v : Validator} {chunk : Bytes} {q : Partial} (hv : v.part.Valid)
    (h : run v.part chunk = some q) :
    v.feed chunk = (⟨q, v.consumed + chunk.length⟩, .ok ()) := by
  rcases feed_spec hv chunk with ⟨_, hq, fed⟩ | ⟨none, _⟩
  · cases h.symm.trans hq
    exact fed
  · cases h.symm.trans none

theorem feed_of_refused {v : Validator} {chunk : Bytes} (hv : v.part.Valid)
    (h : run v.part chunk = none) : ∃ offset, (v.feed chunk).2 = .error (.invalid offset) := by
  rcases feed_spec hv chunk with ⟨_, hq, _⟩ | ⟨_, refused⟩
  · cases h.symm.trans hq
  · exact refused

/-! ### Chunk after chunk -/

theorem begins_flatten_take {chunks : List Bytes} {i j : Nat} (le : i ≤ j)
    (h : Begins (chunks.take j).flatten) : Begins (chunks.take i).flatten := by
  refine h.of_prefix ?_
  obtain ⟨rest, whole⟩ := List.take_prefix_take_left le
  exact ⟨rest.flatten, by rw [← whole, List.flatten_append]⟩

/-- As long as a well-formed string begins with them, the chunks leave the state of their bytes. -/
theorem after_of_run {v : Validator} {chunks : List Bytes} {q : Partial} (hv : v.part.Valid)
    (h : run v.part chunks.flatten = some q) :
    v.after chunks = ⟨q, v.consumed + chunks.flatten.length⟩ := by
  induction chunks generalizing v with
  | nil => cases h; rfl
  | cons c cs ih =>
    rw [List.flatten_cons, run_append] at h
    obtain ⟨p, hp, h⟩ := Option.bind_eq_some_iff.mp h
    have := ih (v := ⟨p, v.consumed + c.length⟩) (valid_of_run hv hp) h
    rw [after, List.foldl_cons, feed_of_run hv hp]
    simpa [after, Nat.add_assoc] using this

theorem getElem?_answers (v : Validator) (chunks : List Bytes) (i : Nat) :
    (v.answers chunks)[i]? = chunks[i]?.map fun c => ((v.after (chunks.take i)).feed c).2 := by
  induction chunks generalizing v i with
  | nil => rfl
  | cons c cs ih =>
    cases i with
    | zero => rfl
    | succ i => exact ih (v.feed c).1 i

/-- The answer to a chunk, after chunks that a well-formed string begins with. -/
theorem answer_spec {chunks : List Bytes} {i : Nat} (bound : i < chunks.length)
    (h : Begins (chunks.take i).flatten) :
    (Begins (chunks.take (i + 1)).flatten ∧ (fresh.answers chunks)[i]? = some (.ok ())) ∨
      ¬ Begins (chunks.take (i + 1)).flatten ∧
        ∃ offset, (fresh.answers chunks)[i]? = some (.error (.invalid offset)) := by
  obtain ⟨p, hp⟩ := Option.ne_none_iff_exists'.mp (run_ne_none_iff.mpr h)
  have next : run .boundary (chunks.take (i + 1)).flatten = run p chunks[i] := by
    rw [List.take_succ_eq_append_getElem bound, List.flatten_append, run_append, hp]
    simp
  rw [← run_ne_none_iff, next, getElem?_answers, List.getElem?_eq_getElem bound, Option.map_some,
    after_of_run valid_boundary hp]
  rcases feed_spec (v := ⟨p, _⟩) (valid_of_run valid_boundary hp) chunks[i] with
    ⟨q, hq, fed⟩ | ⟨none, offset, fed⟩
  · exact .inl ⟨by simp [hq], by rw [fed]⟩
  · exact .inr ⟨by simp [none], offset, by rw [fed]⟩

/-- If no chunk was refused, a well-formed string begins with all of them. -/
theorem begins_of_answers {chunks : List Bytes} (ok : ∀ a ∈ fresh.answers chunks, a = .ok ()) :
    Begins chunks.flatten := by
  have upTo : ∀ i ≤ chunks.length, Begins (chunks.take i).flatten := by
    intro i
    induction i with
    | zero => exact fun _ => WellFormed.nil.begins
    | succ i ih =>
      intro bound
      rcases answer_spec bound (ih (Nat.le_of_lt bound)) with ⟨h, _⟩ | ⟨_, offset, refused⟩
      · exact h
      · cases ok _ (List.mem_of_getElem? refused)
  simpa using upTo chunks.length (Nat.le_refl _)

theorem finish_of_boundary (v : Validator) :
    v.finish.2 = if v.part.isBoundary = true then .ok () else .error .incomplete := rfl

theorem validate_eq_ok_iff {v : Validator} (hv : v.part.Valid) (chunks : List Bytes) :
    v.validate chunks = .ok () ↔
      ∃ q, run v.part chunks.flatten = some q ∧ q.isBoundary = true := by
  induction chunks generalizing v with
  | nil =>
    rw [validate, finish_of_boundary]
    by_cases boundary : v.part.isBoundary = true <;> simp [run, boundary]
  | cons c cs ih =>
    rw [List.flatten_cons, run_append, validate]
    rcases feed_spec hv c with ⟨q, hq, fed⟩ | ⟨none, offset, refused⟩
    · rw [hq, fed]
      exact ih (valid_of_run hv hq)
    · rw [none]
      cases fed : v.feed c with
      | mk w answer =>
        rw [fed] at refused
        cases refused
        simp

/-- A chunk is accepted as long as some well-formed string begins with the bytes so far, and the
    first one after which none does is refused.  If all are accepted, the end is accepted exactly if
    the bytes of all chunks together are well-formed.  So is a message, wherever it is cut. -/
theorem answers_of_chunks (chunks : List Bytes) :
    (∀ i < chunks.length, Begins (chunks.take (i + 1)).flatten →
      (fresh.answers chunks)[i]? = some (.ok ())) ∧
    (∀ i < chunks.length, Begins (chunks.take i).flatten → ¬ Begins (chunks.take (i + 1)).flatten →
      ∃ offset, (fresh.answers chunks)[i]? = some (.error (.invalid offset))) ∧
    ((∀ a ∈ fresh.answers chunks, a = .ok ()) →
      (fresh.after chunks).finish.2 =
        if WellFormed chunks.flatten then .ok () else .error .incomplete) ∧
    (fresh.validate chunks = .ok () ↔ WellFormed chunks.flatten) := by
  refine ⟨?_, ?_, ?_, ?_⟩
  · intro i bound h
    rcases answer_spec bound (begins_flatten_take (Nat.le_succ i) h) with ⟨_, ok⟩ | ⟨not, _⟩
    · exact ok
    · exact absurd h not
  · intro i bound before now
    rcases answer_spec bound before with ⟨h, _⟩ | ⟨_, refused⟩
    · exact absurd h now
    · exact refused
  · intro ok
    obtain ⟨q, hq⟩ := Option.ne_none_iff_exists'.mp (run_ne_none_iff.mpr (begins_of_answers ok))
    rw [after_of_run valid_boundary hq]
    have whole : WellFormed chunks.flatten ↔ q.isBoundary = true := by
      rw [← pays_of_settled (p := .boundary) rfl, ← run_isBoundary_iff]
      simp [hq]
    rw [finish_of_boundary]
    by_cases boundary : q.isBoundary = true
    · rw [if_pos boundary, if_pos (whole.mpr boundary)]
    · rw [if_neg boundary, if_neg (mt whole.mp boundary)]
  · rw [validate_eq_ok_iff valid_boundary, ← pays_of_settled (p := .boundary) rfl,
      ← run_isBoundary_iff]
    rfl

end WebSocketEngine.Utf8.Validator
