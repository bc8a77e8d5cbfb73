import WebSocketEngine.Proofs.Completion.End
import Mathlib.Algebra.BigOperators.Fin
import Mathlib.Algebra.Order.BigOperators.Group.Finset

/-!
What has become of a token: a tree.

Its leaves are the tokens that somebody holds, and those that were let go; above them stand the
wrappers and the splits that lead back to the token at the root.

    root ◀── derived ◀── split 3 ◀── held 7
                                 ◀── settled at 4, ok
                                 ◀── derived ◀── held 9

The tree alone says whether it has come to its end, when, and how (`result?`).  A ledger and the
tokens that are held stand for a tree as `Stands` says; to let go of a token then resolves the root
if this ends the tree, and nothing otherwise (`resolve_held`).
-/

namespace WebSocketEngine.Completion

/-- The splits between a token and its root. -/
def Token.splits {σ : Type} : Token σ → List Nat
  | root _ => []
  | derived t => t.splits
  | part n t => n :: t.splits

/-- What has become of a token. -/
inductive Tree
  /-- Somebody holds it, under a number. -/
  | held (number : Nat)
  /-- It was resolved or dropped in some step. -/
  | settled (time : Nat) (outcome : Outcome)
  /-- It was wrapped. -/
  | derived (wrapper : Tree)
  /-- It was shared out, by the split of some number. -/
  | split (number : Nat) {others : Nat} (parts : Fin (others + 1) → Tree)

namespace Tree

/-- When and how the tree has come to its end. -/
def result? : Tree → Option End
  | held _ => none
  | settled n o => some (n, o)
  | derived t => t.result?
  | split _ parts => End.together (List.ofFn fun i => (parts i).result?)

/-- How often token `k` is held in the tree. -/
def holds (k : Nat) : Tree → Nat
  | held j => if j = k then 1 else 0
  | settled _ _ => 0
  | derived t => t.holds k
  | split _ parts => ∑ i, (parts i).holds k

/-- How often split `n` occurs in the tree. -/
def bears (n : Nat) : Tree → Nat
  | held _ | settled _ _ => 0
  | derived t => t.bears n
  | split m parts => (if m = n then 1 else 0) + ∑ i, (parts i).bears n

/-- All that was let go was so before step `now`. -/
def Past (now : Nat) : Tree → Prop
  | held _ => True
  | settled n _ => n < now
  | derived t => t.Past now
  | split _ parts => ∀ i, (parts i).Past now

/-- The tree with something else in the place of token `k`. -/
def graft (t : Tree) (k : Nat) (new : Tree) : Tree :=
  match t with
  | held j => if j = k then new else held j
  | settled n o => settled n o
  | derived t => derived (t.graft k new)
  | split n parts => split n fun i => (parts i).graft k new

/-- The ends that its leaves have come to. -/
def ends : Tree → List End
  | held _ => []
  | settled n o => [(n, o)]
  | derived t => t.ends
  | split _ parts => (List.ofFn fun i => (parts i).ends).flatten

section

variable {k n others now : Nat} {parts : Fin (others + 1) → Tree} {t new : Tree}

/-! ### Counting -/

theorem holds_part_le (i : Fin (others + 1)) : (parts i).holds k ≤ (split n parts).holds k :=
  Finset.single_le_sum (f := fun i => (parts i).holds k) (fun _ _ => Nat.zero_le _)
    (Finset.mem_univ i)

theorem bears_parts_le : ∑ i, (parts i).bears k ≤ (split n parts).bears k := by
  simp [bears]

theorem bears_part_le (i : Fin (others + 1)) : (parts i).bears k ≤ (split n parts).bears k :=
  (Finset.single_le_sum (f := fun i => (parts i).bears k) (fun _ _ => Nat.zero_le _)
    (Finset.mem_univ i)).trans bears_parts_le

theorem holds_of_part (i : Fin (others + 1)) (holding : (parts i).holds k ≠ 0) :
    (split n parts).holds k ≠ 0 := by
  have le : (parts i).holds k ≤ (split n parts).holds k := holds_part_le i
  omega

theorem bears_of_part (i : Fin (others + 1)) (bearing : (parts i).bears k ≠ 0) :
    (split n parts).bears k ≠ 0 := by
  have le : (parts i).bears k ≤ (split n parts).bears k := bears_part_le i
  omega

/-- Exactly one part holds what the whole holds once. -/
theorem exists_part (once : (split n parts).holds k = 1) :
    ∃ i, (parts i).holds k = 1 ∧ ∀ j ≠ i, (parts j).holds k = 0 := by
  have holding : ∑ i, (parts i).holds k ≠ 0 := by
    rw [show ∑ i, (parts i).holds k = 1 from once]
    exact one_ne_zero
  obtain ⟨i, -, holds⟩ := Finset.exists_ne_zero_of_sum_ne_zero holding
  have total := Finset.add_sum_erase Finset.univ (fun i => (parts i).holds k) (Finset.mem_univ i)
  rw [show ∑ i, (parts i).holds k = 1 from once] at total
  have rest : ∑ j ∈ Finset.univ.erase i, (parts j).holds k = 0 := by omega
  refine ⟨i, by omega, fun j other => ?_⟩
  exact (Finset.sum_eq_zero_iff.mp rest) j (by simp [other])

/-- No other part bears a split that one part bears. -/
theorem bears_other (once : ∀ m, (split n parts).bears m ≤ 1) {i j : Fin (others + 1)}
    (other : j ≠ i) (bears : (parts j).bears k ≠ 0) : (parts i).bears k = 0 := by
  have total := Finset.add_sum_erase Finset.univ (fun i => (parts i).bears k) (Finset.mem_univ i)
  have among : (parts j).bears k ≤ ∑ j ∈ Finset.univ.erase i, (parts j).bears k :=
    Finset.single_le_sum (f := fun i => (parts i).bears k) (fun _ _ => Nat.zero_le _)
      (by simp [other])
  have bound := (bears_parts_le (n := n)).trans (once k)
  omega

/-- A split is not among its own parts. -/
theorem bears_self (once : ∀ m, (split n parts).bears m ≤ 1) (i : Fin (others + 1)) :
    (parts i).bears n = 0 := by
  have bound := once n
  have part : (parts i).bears n ≤ ∑ i, (parts i).bears n :=
    Finset.single_le_sum (f := fun i => (parts i).bears n) (fun _ _ => Nat.zero_le _)
      (Finset.mem_univ i)
  simp only [bears, if_true] at bound
  omega

/-- What a token that was just shared out holds. -/
theorem holds_row (first k others : Nat) :
    (split n fun i : Fin (others + 1) => held (first + i)).holds k =
      if first ≤ k ∧ k < first + (others + 1) then 1 else 0 := by
  simp only [holds]
  split
  · next among =>
    rw [Finset.sum_eq_single (⟨k - first, by omega⟩ : Fin (others + 1))]
    · exact if_pos (by simp; omega)
    · exact fun i _ other => if_neg fun eq => other (Fin.ext (by simp; omega))
    · exact fun absent => (absent (Finset.mem_univ _)).elim
  · next elsewhere => exact Finset.sum_eq_zero fun i _ => if_neg fun eq => elsewhere (by omega)

theorem holds_graft (j : Nat) :
    (t.graft k new).holds j = (if j = k then 0 else t.holds j) + t.holds k * new.holds j := by
  induction t with
  | held i =>
    by_cases same : i = k
    · subst same
      by_cases j = i <;> simp_all [graft, holds]
      omega
    · simp [graft, holds, same]
      intros; omega
  | settled n o => simp [graft, holds]
  | derived t ih => simpa [graft, holds] using ih
  | split n parts ih =>
    simp only [graft, holds, ih, Finset.sum_add_distrib, Finset.sum_mul]
    split <;> simp

theorem bears_graft (n : Nat) :
    (t.graft k new).bears n = t.bears n + t.holds k * new.bears n := by
  induction t with
  | held i => by_cases same : i = k <;> simp [graft, holds, bears, same]
  | settled n o => simp [graft, holds, bears]
  | derived t ih => simpa [graft, holds, bears] using ih
  | split n parts ih =>
    simp only [graft, holds, bears, ih, Finset.sum_add_distrib, Finset.sum_mul]
    omega

theorem graft_of_not_held (absent : t.holds k = 0) (new : Tree) : t.graft k new = t := by
  induction t with
  | held j =>
    have other : j ≠ k := by
      rintro rfl
      simp [holds] at absent
    simp [graft, other]
  | settled n o => rfl
  | derived t ih => rw [graft, ih absent]
  | split n parts ih =>
    have each : ∀ i, (parts i).holds k = 0 := by simpa [holds] using absent
    simp only [graft, fun i => ih i (each i)]

/-! ### Ends -/

/-- A tree has come to its end when none of its tokens is held any more. -/
theorem result?_eq_none_iff : t.result? = none ↔ ∃ k, t.holds k ≠ 0 := by
  induction t with
  | held j => exact ⟨fun _ => ⟨j, by simp [holds]⟩, fun _ => rfl⟩
  | settled n o => simp [result?, holds]
  | derived t ih => exact ih
  | split n parts ih =>
    simp only [result?, End.together_eq_none_iff, List.mem_ofFn, ih, holds, ne_eq,
      Finset.sum_eq_zero_iff, not_forall]
    constructor
    · rintro ⟨i, k, holds⟩
      exact ⟨k, i, Finset.mem_univ i, holds⟩
    · rintro ⟨k, i, -, holds⟩
      exact ⟨i, k, holds⟩

theorem part_over {e : End} (ended : (split n parts).result? = some e) (i : Fin (others + 1)) :
    ∃ d, (parts i).result? = some d := by
  refine Option.ne_none_iff_exists'.mp fun unended => ?_
  have missing : (split n parts).result? = none :=
    End.together_eq_none_iff.mpr (List.mem_ofFn.mpr ⟨i, unended⟩)
  rw [missing] at ended
  cases ended

/-- It has ended well if all of its leaves have. -/
theorem ok_iff {e : End} (ended : t.result? = some e) :
    e.2 = .ok () ↔ ∀ d ∈ t.ends, d.2 = .ok () := by
  induction t generalizing e with
  | held j => cases ended
  | settled n o =>
    cases ended
    simp [ends]
  | derived t ih => exact ih ended
  | split n parts ih =>
    rw [End.ok_of_together ended]
    simp only [List.mem_ofFn, ends, List.mem_flatten]
    constructor
    · rintro well d ⟨_, ⟨i, rfl⟩, mem⟩
      obtain ⟨e, ended⟩ := part_over ended i
      exact (ih i ended).mp (well e ⟨i, ended⟩) d mem
    · rintro well d ⟨i, ended⟩
      exact (ih i ended).mpr fun d mem => well d ⟨_, ⟨i, rfl⟩, mem⟩

/-- It has ended with the last of its leaves. -/
theorem time_of_ends {e : End} (ended : t.result? = some e) : e.1 = End.latest t.ends := by
  induction t generalizing e with
  | held j => cases ended
  | settled n o =>
    cases ended
    simp [ends, End.latest]
  | derived t ih => exact ih ended
  | split n parts ih =>
    rw [End.together_eq_some ended]
    refine le_antisymm (End.latest_le fun d mem => ?_) (End.latest_le fun d mem => ?_)
    · obtain ⟨_, among, rfl⟩ := List.mem_filterMap.mp mem
      obtain ⟨i, part⟩ := List.mem_ofFn.mp among
      rw [ih i part]
      exact End.latest_mono fun c mem =>
        List.mem_flatten.mpr ⟨_, List.mem_ofFn.mpr ⟨i, rfl⟩, mem⟩
    · obtain ⟨_, among, mem⟩ := List.mem_flatten.mp mem
      obtain ⟨i, rfl⟩ := List.mem_ofFn.mp among
      obtain ⟨c, part⟩ := part_over ended i
      refine (End.le_latest mem).trans ?_
      rw [← ih i part]
      exact End.le_latest (List.mem_filterMap.mpr ⟨some c, List.mem_ofFn.mpr ⟨i, part⟩, rfl⟩)

theorem past_mono {later : Nat} (le : now ≤ later) (past : t.Past now) : t.Past later := by
  induction t with
  | held k => trivial
  | settled n o => exact Nat.lt_of_lt_of_le past le
  | derived t ih => exact ih past
  | split n parts ih => exact fun i => ih i (past i)

theorem past_graft {later : Nat} (le : now ≤ later) (past : t.Past now)
    (later_past : new.Past later) : (t.graft k new).Past later := by
  induction t with
  | held j =>
    rw [graft]
    split
    · exact later_past
    · trivial
  | settled n o => exact Nat.lt_of_lt_of_le past le
  | derived t ih => exact ih past
  | split n parts ih => exact fun i => ih i (past i)

/-- The end of a tree is the end of one of its leaves. -/
theorem past_result? {e : End} (past : t.Past now) (ended : t.result? = some e) : e.1 < now := by
  induction t generalizing e with
  | held k => cases ended
  | settled n o =>
    cases ended
    exact past
  | derived t ih => exact ih past ended
  | split n parts ih =>
    rw [End.together_eq_some ended]
    refine End.latest_lt ?_ fun d mem => ?_
    · obtain ⟨d, first⟩ := part_over ended 0
      exact List.ne_nil_of_mem (a := d)
        (List.mem_filterMap.mpr ⟨some d, List.mem_ofFn.mpr ⟨0, first⟩, rfl⟩)
    · obtain ⟨_, among, rfl⟩ := List.mem_filterMap.mp mem
      obtain ⟨i, ended⟩ := List.mem_ofFn.mp among
      exact ih i (past i) ended

/-- What replaces a token leaves the end of a tree alone, as long as it is open itself. -/
theorem result?_graft (unended : new.result? = none) : (t.graft k new).result? = t.result? := by
  by_cases absent : t.holds k = 0
  · rw [graft_of_not_held absent]
  · obtain ⟨j, holds⟩ := result?_eq_none_iff.mp unended
    rw [result?_eq_none_iff.mpr ⟨k, absent⟩, result?_eq_none_iff]
    refine ⟨j, ?_⟩
    rw [holds_graft]
    have positive := Nat.mul_pos (Nat.pos_of_ne_zero absent) (Nat.pos_of_ne_zero holds)
    omega

end

/-! ### A ledger and tokens that stand for a tree -/

/-- The ledger and the tokens that are held, by number, stand for the tree of a token. -/
def Stands {σ : Type} (l : Ledger) (held : Nat → Option (Token σ)) (t : Token σ) : Tree → Prop
  | .held k => held k = some t
  | settled _ _ => True
  | derived u => u.Stands l held (.derived t)
  | split n parts =>
    l.splits[n]? = some (End.tally (List.ofFn fun i => (parts i).result?)) ∧
      ∀ i, (parts i).Stands l held (.part n t)

section

variable {σ : Type} {l l' : Ledger} {h h' : Nat → Option (Token σ)} {t : Token σ}
  {tree new : Tree} {k now : Nat}

/-- Only the splits of the tree and its tokens matter. -/
theorem Stands.frame (stands : tree.Stands l h t)
    (splits : ∀ n, tree.bears n ≠ 0 → l'.splits[n]? = l.splits[n]?)
    (same : ∀ j, tree.holds j ≠ 0 → h' j = h j) : tree.Stands l' h' t := by
  induction tree generalizing t with
  | held j => exact (same j (by simp [holds])).trans stands
  | settled n o => trivial
  | derived u ih => exact ih stands splits same
  | split n parts ih =>
    exact ⟨(splits n (by simp [bears])).trans stands.1, fun i => ih i (stands.2 i)
      (fun m bearing => splits m (bears_of_part i bearing))
      fun m holding => same m (holds_of_part (n := n) i holding)⟩

/-- A token of the tree is held under its number.  On its way to the root it passes splits that wait
    for it, each of them once. -/
theorem Stands.exists_token (stands : tree.Stands l h t) (bears_once : ∀ n, tree.bears n ≤ 1)
    (holding : tree.holds k ≠ 0) :
    ∃ u above, h k = some u ∧ u.splits = above ++ t.splits ∧ above.Nodup ∧
      ∀ n ∈ above, tree.bears n ≠ 0 ∧ ∃ w, l.splits[n]? = some w ∧ 0 < w.remaining := by
  induction tree generalizing t with
  | held j =>
    have same : j = k := by simpa [holds] using holding
    exact ⟨t, [], same ▸ stands, rfl, .nil, by simp⟩
  | settled n o => exact (holding rfl).elim
  | derived u ih => exact ih (t := .derived t) stands bears_once holding
  | split n parts ih =>
    obtain ⟨i, -, part⟩ := Finset.exists_ne_zero_of_sum_ne_zero holding
    obtain ⟨u, above, token, path, nodup, waiting⟩ := ih i (stands.2 i)
      (fun m => (bears_part_le i).trans (bears_once m)) part
    refine ⟨u, above ++ [n], token, ?_, ?_, fun m mem => ?_⟩
    · rw [path, List.append_assoc]
      rfl
    · refine List.nodup_append.mpr ⟨nodup, List.nodup_singleton n, fun a mem b single => ?_⟩
      rintro rfl
      rw [List.mem_singleton.mp single] at mem
      exact (waiting n mem).1 (bears_self bears_once i)
    · rcases List.mem_append.mp mem with among | last
      · exact ⟨bears_of_part i (waiting m among).1, (waiting m among).2⟩
      · rw [List.mem_singleton.mp last]
        refine ⟨by simp [bears], _, stands.1, Nat.pos_of_ne_zero fun spent => ?_⟩
        refine End.pending_eq_zero_iff.mp spent (List.mem_ofFn.mpr ⟨i, ?_⟩)
        exact result?_eq_none_iff.mpr ⟨k, part⟩

/-- A token is replaced by something that has not come to its end. -/
theorem Stands.graft (stands : tree.Stands l h t) (unended : new.result? = none)
    (new_stands : ∀ u, h k = some u → new.Stands l' h' u)
    (splits : ∀ n, tree.bears n ≠ 0 → l'.splits[n]? = l.splits[n]?)
    (same : ∀ j, tree.holds j ≠ 0 → j ≠ k → h' j = h j) :
    (tree.graft k new).Stands l' h' t := by
  induction tree generalizing t with
  | held j =>
    rw [Tree.graft]
    split
    · next here => exact new_stands t (here ▸ stands)
    · next other => exact (same j (by simp [holds]) other).trans stands
  | settled n o => trivial
  | derived u ih => exact ih stands splits same
  | split n parts ih =>
    refine ⟨?_, fun i => ih i (stands.2 i) (fun m bearing => splits m (bears_of_part i bearing))
      fun m holding => same m (holds_of_part (n := n) i holding)⟩
    simp only [result?_graft unended]
    exact (splits n (by simp [bears])).trans stands.1

/-- A part of a split has let go of a token, and the parts stand whatever the split says then. -/
theorem Stands.graft_parts {n others : Nat} {parts : Fin (others + 1) → Tree} {l₁ : Ledger}
    (stands : (split n parts).Stands l h t) (bears_once : ∀ m, (split n parts).bears m ≤ 1)
    (kept : ∀ j ≠ k, h' j = h j) {i : Fin (others + 1)} (absent : ∀ j ≠ i, (parts j).holds k = 0)
    (splits : ∀ m, (parts i).bears m = 0 → l₁.splits[m]? = l.splits[m]?) {o : Outcome}
    (stand : ((parts i).graft k (settled now o)).Stands l₁ h' (.part n t))
    (same : ∀ m ≠ n, l'.splits[m]? = l₁.splits[m]?) (j : Fin (others + 1)) :
    ((parts j).graft k (settled now o)).Stands l' h' (.part n t) := by
  have apart (m) (bearing : (parts j).bears m ≠ 0) : m ≠ n := by
    rintro rfl
    exact bearing (bears_self bears_once j)
  by_cases here : j = i
  · subst here
    refine stand.frame (fun m bearing => same m (apart m ?_)) fun _ _ => rfl
    simpa [bears_graft, bears] using bearing
  · rw [graft_of_not_held (absent j here)]
    refine (stands.2 j).frame (fun m bearing => (same m (apart m bearing)).trans ?_)
      fun m holding => ?_
    · exact splits m (bears_other bears_once here bearing)
    · refine kept m ?_
      rintro rfl
      exact holding (absent j here)

/-- A split takes down the end of a part, and passes the end of the whole on if it was the last. -/
theorem resolve_part_of_tally {n : Nat} {xs ys : List (Option End)}
    (entry : l.splits[n]? = some (End.tally (xs ++ none :: ys)))
    (past : ∀ e, some e ∈ xs ++ ys → e.1 < now) (o : Outcome) (t : Token σ) :
    ∃ l' : Ledger, (∀ m ≠ n, l'.splits[m]? = l.splits[m]?) ∧
      l'.splits[n]? = some (End.tally (xs ++ some (now, o) :: ys)) ∧
      (End.together (xs ++ some (now, o) :: ys) = none ∧ l.resolve (.part n t) o = (l', none) ∨
        ∃ whole, End.together (xs ++ some (now, o) :: ys) = some (now, whole) ∧
          l.resolve (.part n t) o = l'.resolve t whole) := by
  refine ⟨⟨l.splits.set n ((End.tally (xs ++ none :: ys)).record o)⟩,
    fun m other => List.getElem?_set_ne other.symm, ?_, ?_⟩
  · rw [End.tally_insert past]
    exact List.getElem?_set_self (List.getElem?_eq_some_iff.mp entry).1
  · have recorded := End.together_insert (o := o) past
    rw [Ledger.resolve, Ledger.record, entry]
    by_cases last : (End.tally (xs ++ none :: ys)).remaining = 1
    · rw [if_pos last] at recorded
      exact .inr ⟨_, recorded, by simp only [if_pos last]⟩
    · rw [if_neg last] at recorded
      exact .inl ⟨recorded, by simp only [if_neg last]⟩

/-- To let go of a token of the tree resolves the root if that was the last one, and brings it the
    end of the tree; otherwise nobody hears of it. -/
theorem Stands.resolve_held (stands : tree.Stands l h t) (holds_once : tree.holds k = 1)
    (bears_once : ∀ n, tree.bears n ≤ 1) (past : tree.Past now) {u : Token σ}
    (token : h k = some u) (o : Outcome) (kept : ∀ j ≠ k, h' j = h j) :
    ∃ l', (∀ n, tree.bears n = 0 → l'.splits[n]? = l.splits[n]?) ∧
      (tree.graft k (settled now o)).Stands l' h' t ∧
      ((tree.graft k (settled now o)).result? = none ∧ l.resolve u o = (l', none) ∨
        ∃ whole, (tree.graft k (settled now o)).result? = some (now, whole) ∧
          l.resolve u o = l'.resolve t whole) := by
  induction tree generalizing t with
  | held j =>
    have same : j = k := by
      simpa [holds] using holds_once
    subst same
    have root : u = t := Option.some.inj (token.symm.trans stands)
    subst root
    refine ⟨l, fun _ _ => rfl, ?_, .inr ⟨o, ?_, rfl⟩⟩ <;> rw [Tree.graft, if_pos rfl]
    · trivial
    · rfl
  | settled n o => cases holds_once
  | derived v ih =>
    obtain ⟨l', splits, stand, ended⟩ := ih stands holds_once bears_once past
    exact ⟨l', splits, stand, ended⟩
  | split n parts ih =>
    obtain ⟨i, part, absent⟩ := exists_part holds_once
    obtain ⟨l₁, splits, stand, ended⟩ := ih i (stands.2 i) part
      (fun m => (bears_part_le i).trans (bears_once m)) (past i)
    obtain ⟨xs, ys, before, after⟩ := End.exists_ofFn (i := i)
      (f := fun j => (parts j).result?) (g := fun j => ((parts j).graft k (settled now o)).result?)
      fun j other => by rw [graft_of_not_held (absent j other)]
    have waiting : (parts i).result? = none :=
      result?_eq_none_iff.mpr ⟨k, by rw [part]; exact one_ne_zero⟩
    rw [waiting] at before
    have entry : l₁.splits[n]? = some (End.tally (xs ++ none :: ys)) := by
      rw [← before]
      exact (splits n (bears_self bears_once i)).trans stands.1
    have elsewhere (m) (absent : (split n parts).bears m = 0) :
        m ≠ n ∧ l₁.splits[m]? = l.splits[m]? := by
      refine ⟨?_, splits m (by_contra fun bearing => bears_of_part i bearing absent)⟩
      rintro rfl
      simp [bears] at absent
    have parts_stand {l' : Ledger} (same : ∀ m ≠ n, l'.splits[m]? = l₁.splits[m]?) :=
      Stands.graft_parts stands bears_once kept absent splits stand same
    rcases ended with ⟨unended, resolved⟩ | ⟨whole, ended, resolved⟩
    · rw [unended] at after
      refine ⟨l₁, fun m absent => (elsewhere m absent).2, ⟨?_, parts_stand fun _ _ => rfl⟩,
        .inl ⟨?_, resolved⟩⟩
      · rw [after]
        exact entry
      · exact End.together_eq_none_iff.mpr (by rw [after]; simp)
    · rw [ended] at after
      have past_others (e) (mem : some e ∈ xs ++ ys) : e.1 < now := by
        have among : some e ∈ List.ofFn fun i => (parts i).result? := by
          rw [before]
          rcases List.mem_append.mp mem with mem | mem <;> simp [mem]
        obtain ⟨j, ended⟩ := List.mem_ofFn.mp among
        exact past_result? (past j) ended
      obtain ⟨l', same, tallied, passed⟩ := resolve_part_of_tally entry past_others whole t
      refine ⟨l', fun m absent => ?_, ⟨?_, parts_stand same⟩, ?_⟩
      · obtain ⟨other, still⟩ := elsewhere m absent
        exact (same m other).trans still
      · rw [after]
        exact tallied
      · rw [← after] at passed
        rw [resolved]
        exact passed

end

end Tree

end WebSocketEngine.Completion
