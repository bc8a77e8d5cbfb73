import WebSocketEngine.Completion.Token
import Mathlib.Data.List.MinMax
import Mathlib.Data.List.OfFn
import Mathlib.Order.Nat

/-!
The end of a whole, by the ends of its parts.

Each part comes to its end at some time and with some outcome.  The whole comes to its end with the
last of them; it fails if a part has failed, and then with the failure that came first:

    open,  2 ok,  7 e       the whole is open
    9 ok,  2 ok,  7 e       9 e
    9 d,   2 ok,  7 e       9 e

A split learns of one part after another, and keeps no more than how many are missing and the first
failure so far; that is enough (`tally_insert`, `together_insert`).
-/

namespace WebSocketEngine.Completion

/-! ### Lists -/

theorem getElem?_concat_cases {α : Type} {xs : List α} {x y : α} {r : Nat}
    (found : (xs ++ [x])[r]? = some y) : xs[r]? = some y ∨ r = xs.length ∧ y = x := by
  rcases Nat.lt_trichotomy r xs.length with before | rfl | after
  · rw [List.getElem?_append_left before] at found
    exact .inl found
  · rw [List.getElem?_concat_length] at found
    exact .inr ⟨rfl, (Option.some.inj found).symm⟩
  · rw [List.getElem?_eq_none (by simp; omega)] at found
    cases found

/-! ### Ends -/

/-- The failure in an outcome. -/
def failure? : Outcome → Option Failure
  | .error e => some e
  | .ok _ => none

theorem Split.record_eq (s : Split) (o : Outcome) :
    s.record o = ⟨s.remaining - 1, s.failure.or (failure? o)⟩ := by
  simp only [record, Option.orElse_eq_orElse, Option.orElse_eq_or]
  cases o <;> rfl

/-- When something came to an end, and with which outcome. -/
abbrev End := Nat × Outcome

namespace End

def failure? : End → Option (Nat × Failure)
  | (n, .error e) => some (n, e)
  | (_, .ok _) => none

/-- The failure that came first. -/
def firstFailure (ends : List End) : Option Failure :=
  ((ends.filterMap failure?).argmin (·.1)).map (·.2)

/-- The time of the last end. -/
def latest (ends : List End) : Nat := (ends.map (·.1)).foldr max 0

/-- How many of some parts have not come to an end. -/
def pending (parts : List (Option End)) : Nat := parts.countP (·.isNone)

/-- The end of a whole: it comes with the last end of a part, and brings the failure that came first
    if there was one. -/
def together (parts : List (Option End)) : Option End :=
  if pending parts = 0 then
    some (latest (parts.filterMap id),
      match firstFailure (parts.filterMap id) with
      | some e => .error e
      | none => .ok ())
  else none

/-- What a split should know of its parts. -/
def tally (parts : List (Option End)) : Split := ⟨pending parts, firstFailure (parts.filterMap id)⟩

theorem pending_eq_zero_iff {parts : List (Option End)} : pending parts = 0 ↔ none ∉ parts := by
  simp only [pending, List.countP_eq_zero, Option.isNone_iff_eq_none]
  exact ⟨fun all missing => all none missing rfl, fun present p mem eq => present (eq ▸ mem)⟩

theorem together_eq_none_iff {parts : List (Option End)} :
    together parts = none ↔ none ∈ parts := by
  rw [together]
  split
  · next spent => simp [pending_eq_zero_iff.mp spent]
  · next unended => simpa [pending_eq_zero_iff] using unended

theorem together_eq_some {parts : List (Option End)} {e : End} (ended : together parts = some e) :
    e = (latest (parts.filterMap id), (tally parts).outcome) := by
  rw [together] at ended
  split at ended
  · exact (Option.some.inj ended).symm
  · cases ended

/-- The whole is well if each part is. -/
theorem ok_of_together {parts : List (Option End)} {e : End} (ended : together parts = some e) :
    e.2 = .ok () ↔ ∀ d, some d ∈ parts → d.2 = .ok () := by
  have failures : firstFailure (parts.filterMap id) = none ↔
      ∀ d, some d ∈ parts → d.2 = .ok () := by
    rw [firstFailure, Option.map_eq_none_iff, List.argmin_eq_none, List.filterMap_eq_nil_iff]
    have each (d : End) : failure? d = none ↔ d.2 = .ok () := by
      rcases d with ⟨n, _ | _⟩ <;> simp [failure?]
    simp only [List.mem_filterMap, id_eq, exists_eq_right, each]
  rw [together_eq_some ended, ← failures]
  simp only [Split.outcome, tally]
  cases firstFailure (parts.filterMap id) <;> simp

theorem argmin_insert {now : Nat} {e : Failure} {xs ys : List (Nat × Failure)}
    (xs_past : ∀ x ∈ xs, x.1 < now) (ys_past : ∀ y ∈ ys, y.1 < now) :
    (xs ++ (now, e) :: ys).argmin (·.1) = ((xs ++ ys).argmin (·.1)).or (some (now, e)) := by
  induction xs with
  | nil =>
    rw [List.nil_append, List.nil_append, List.argmin_cons]
    cases least : ys.argmin (·.1) with
    | none => rfl
    | some y =>
      have past := ys_past y (List.argmin_mem least)
      simp [past]
  | cons x xs ih =>
    have past := xs_past x (by simp)
    rw [List.cons_append, List.argmin_cons, ih fun x mem => xs_past x (by simp [mem]),
      List.cons_append, List.argmin_cons]
    cases (xs ++ ys).argmin (·.1) with
    | none => simp [past.le]
    | some y =>
      simp only [Option.some_or]
      split <;> rfl

theorem latest_le {n : Nat} {ends : List End} (bound : ∀ e ∈ ends, e.1 ≤ n) : latest ends ≤ n := by
  refine List.max_le_of_forall_le (ends.map (·.1)) n fun m mem => ?_
  obtain ⟨e, found, rfl⟩ := List.mem_map.mp mem
  exact bound e found

theorem le_latest {e : End} {ends : List End} (mem : e ∈ ends) : e.1 ≤ latest ends :=
  List.le_max_of_le (List.mem_map_of_mem mem) le_rfl

theorem latest_mono {ends more : List End} (sub : ∀ e ∈ ends, e ∈ more) :
    latest ends ≤ latest more :=
  latest_le fun e mem => le_latest (sub e mem)

theorem latest_lt {n : Nat} {ends : List End} (nonempty : ends ≠ [])
    (past : ∀ e ∈ ends, e.1 < n) : latest ends < n := by
  obtain ⟨e, mem⟩ := List.exists_mem_of_ne_nil ends nonempty
  have positive := past e mem
  have bound := latest_le (n := n - 1) fun e mem => Nat.le_sub_one_of_lt (past e mem)
  omega

theorem tally_open (count : Nat) :
    tally (List.ofFn fun _ : Fin count => none) = ⟨count, none⟩ := by
  simp [tally, pending, firstFailure, List.ofFn_const, List.countP_replicate]

/-! ### One more part comes to its end -/

theorem exists_ofFn {α : Type} {count : Nat} {f g : Fin count → α} {i : Fin count}
    (same : ∀ j ≠ i, g j = f j) :
    ∃ xs ys, List.ofFn f = xs ++ f i :: ys ∧ List.ofFn g = xs ++ g i :: ys := by
  induction count with
  | zero => exact i.elim0
  | succ count ih =>
    rw [List.ofFn_succ, List.ofFn_succ]
    cases i using Fin.cases with
    | zero =>
      have rest : (fun j : Fin count => g j.succ) = fun j => f j.succ :=
        funext fun j => same _ (Fin.succ_ne_zero j)
      exact ⟨[], _, rfl, by rw [rest]; rfl⟩
    | succ i =>
      obtain ⟨xs, ys, before, after⟩ := ih (f := fun j => f j.succ) (g := fun j => g j.succ)
        (i := i) fun j other => same _ fun eq => other (Fin.succ_inj.mp eq)
      refine ⟨f 0 :: xs, ys, by rw [before]; rfl, ?_⟩
      rw [after, same 0 (Fin.succ_ne_zero i).symm]
      rfl

section Insert

variable {now : Nat} {o : Outcome} {xs ys : List (Option End)}

theorem pending_insert : pending (xs ++ none :: ys) = pending (xs ++ some (now, o) :: ys) + 1 := by
  simp [pending, List.countP_append]
  omega

variable (past : ∀ e, some e ∈ xs ++ ys → e.1 < now)

include past

theorem latest_insert : latest ((xs ++ some (now, o) :: ys).filterMap id) = now := by
  refine le_antisymm (latest_le fun e mem => ?_) (le_latest (e := (now, o)) (by simp))
  rcases (by simpa using mem : some e ∈ xs ∨ e = (now, o) ∨ some e ∈ ys) with old | rfl | old
  · exact (past e (by simp [old])).le
  · exact le_rfl
  · exact (past e (by simp [old])).le

theorem firstFailure_insert :
    firstFailure ((xs ++ some (now, o) :: ys).filterMap id) =
      (firstFailure ((xs ++ none :: ys).filterMap id)).or (Completion.failure? o) := by
  have failures_past (zs : List (Option End)) (early : ∀ e, some e ∈ zs → e.1 < now) :
      ∀ f ∈ (zs.filterMap id).filterMap failure?, f.1 < now := by
    intro f mem
    obtain ⟨e, mem, failed⟩ := List.mem_filterMap.mp mem
    obtain ⟨e', mem, rfl⟩ := List.mem_filterMap.mp mem
    have same : f.1 = e.1 := by
      rcases e with ⟨n, _ | _⟩ <;> cases failed
      rfl
    rw [same]
    exact early e mem
  cases o with
  | ok u =>
    have skipped : failure? (now, .ok u) = none := rfl
    have silent : Completion.failure? (.ok u) = none := rfl
    simp [firstFailure, skipped, silent]
  | error e =>
    have failed : failure? (now, .error e) = some (now, e) := rfl
    simp only [firstFailure, List.filterMap_append, List.filterMap_cons, id_eq, failed]
    rw [argmin_insert, Option.map_or]
    · rfl
    · exact failures_past xs fun e mem => past e (by simp [mem])
    · exact failures_past ys fun e mem => past e (by simp [mem])

theorem tally_insert : tally (xs ++ some (now, o) :: ys) = (tally (xs ++ none :: ys)).record o := by
  have counted : pending (xs ++ none :: ys) - 1 = pending (xs ++ some (now, o) :: ys) :=
    Nat.sub_eq_of_eq_add pending_insert
  rw [tally, ← counted, firstFailure_insert past, Split.record_eq]
  rfl

/-- The whole comes to its end with the last part that was missing. -/
theorem together_insert :
    together (xs ++ some (now, o) :: ys) =
      if (tally (xs ++ none :: ys)).remaining = 1 then
        some (now, ((tally (xs ++ none :: ys)).record o).outcome)
      else none := by
  have counted : (tally (xs ++ none :: ys)).remaining = pending (xs ++ some (now, o) :: ys) + 1 :=
    pending_insert
  rw [← tally_insert past, counted, together, latest_insert past]
  simp only [Nat.add_eq_right]
  rfl

end Insert

end End

end WebSocketEngine.Completion
