import WebSocketEngine.Completion.Future
import WebSocketEngine.Proofs.Completion.Tree

/-!
What is to become of tokens: a tree for each channel.

Somebody holds tokens, wraps them, shares them out, lets go of them and looks at the futures of
their channels, in any order.  Each of these moves replaces a leaf of one tree:

    plant          a new tree: a token that is held
    derive k       token k is wrapped
    split k n      token k is shared out among n tokens, or settled if n = 0
    release k      token k is settled
    ask r          nothing; the answer is the end of tree r

A ledger and the tokens that are held stand for such a forest (`Stand`), and go on to do so when a
token is replaced (`Stand.graft`) or settled (`Stand.settle`).
-/

namespace WebSocketEngine.Completion

/-! ### Moves -/

/-- A way to look at a future. -/
inductive Question
  | outcome
  | done
  | poll

inductive Answer
  | outcome (o : Option Outcome)
  | done (b : Bool)
  | polled (p : Poll)

namespace Question

/-- What a future answers. -/
def ask (f : Future) : Question → Future × Answer
  | outcome => (f.tryOutcome.1, .outcome f.tryOutcome.2)
  | done => (f.isDone.1, .done f.isDone.2)
  | poll => (f.poll.1, .polled f.poll.2)

/-- What is to be answered, by the outcome if there is one. -/
def answer (o : Option Outcome) : Question → Answer
  | outcome => .outcome o
  | done => .done o.isSome
  | poll => .polled (o.elim .pending .ready)

end Question

/-- Tokens and channels are numbered in the order in which they come up. -/
inductive Move
  /-- A new channel, with its token. -/
  | plant
  /-- Wraps a token. -/
  | derive (token : Nat)
  /-- Shares a token out. -/
  | split (token count : Nat)
  /-- Lets go of a token. -/
  | release (token : Nat) (how : Release)
  /-- Looks at the future of a channel. -/
  | ask (channel : Nat) (question : Question)

/-! ### What is to happen -/

structure Forest where
  /-- The trees of the channels. -/
  trees : List Tree
  /-- Tokens so far. -/
  tokens : Nat
  /-- Splits so far. -/
  splits : Nat
  /-- Moves so far. -/
  time : Nat
  answers : List Answer

namespace Forest

def empty : Forest := ⟨[], 0, 0, 0, []⟩

/-- Puts something in the place of a token. -/
def graft (f : Forest) (k : Nat) (new : Tree) : Forest :=
  { f with trees := f.trees.map (·.graft k new) }

/-- How a channel's tree has come to its end. -/
def end? (f : Forest) (r : Nat) : Option End := f.trees[r]?.bind (·.result?)

def change (f : Forest) : Move → Forest
  | .plant => { f with trees := f.trees ++ [.held f.tokens], tokens := f.tokens + 1 }
  | .derive k =>
    if ∃ t ∈ f.trees, t.holds k ≠ 0 then
      { f.graft k (.derived (.held f.tokens)) with tokens := f.tokens + 1 }
    else f
  | .split k 0 => f.graft k (.settled f.time (.ok ()))
  | .split k (others + 1) =>
    if ∃ t ∈ f.trees, t.holds k ≠ 0 then
      { f.graft k (.split f.splits fun i : Fin (others + 1) => .held (f.tokens + i)) with
        tokens := f.tokens + (others + 1)
        splits := f.splits + 1 }
    else f
  | .release k how => f.graft k (.settled f.time how.outcome)
  | .ask r q =>
    if r < f.trees.length then
      { f with answers := f.answers ++ [q.answer ((f.end? r).map (·.2))] }
    else f

def tick (f : Forest) : Forest := { f with time := f.time + 1 }

def move (f : Forest) (m : Move) : Forest := (f.change m).tick

def after (ms : List Move) : Forest := ms.foldl move empty

/-- A count over all trees. -/
def total (f : Forest) (count : Tree → Nat) : Nat := (f.trees.map count).sum

end Forest

/-! ### Counting -/

namespace Forest

variable {f : Forest} {count : Tree → Nat} {r r' k : Nat} {t u new : Tree}

theorem le_total (count : Tree → Nat) (tree : f.trees[r]? = some t) : count t ≤ f.total count :=
  List.le_sum_of_mem (List.mem_map_of_mem (List.mem_of_getElem? tree))

theorem total_ne_zero_iff (count : Tree → Nat) :
    f.total count ≠ 0 ↔ ∃ t ∈ f.trees, count t ≠ 0 := by
  simp [total, List.sum_eq_zero_iff]

theorem total_graft {a b : Tree → Nat} {c : Nat}
    (each : ∀ t : Tree, count (t.graft k new) = a t + b t * c) :
    (f.graft k new).total count = f.total a + f.total b * c := by
  simp only [total, graft, List.map_map, Function.comp_def, each]
  induction f.trees with
  | nil => simp
  | cons t ts ih =>
    simp only [List.map_cons, List.sum_cons, ih, Nat.add_mul]
    omega

theorem total_holds_graft (j : Nat) :
    (f.graft k new).total (·.holds j) =
      (if j = k then 0 else f.total (·.holds j)) + f.total (·.holds k) * new.holds j := by
  rw [total_graft fun t => t.holds_graft j]
  split
  · simp [total]
  · rfl

theorem total_bears_graft (n : Nat) :
    (f.graft k new).total (·.bears n) = f.total (·.bears n) + f.total (·.holds k) * new.bears n :=
  total_graft fun _ => Tree.bears_graft n

/-- What is counted once is in one tree. -/
theorem eq_of_total (once : f.total count ≤ 1) (tree : f.trees[r]? = some t)
    (tree' : f.trees[r']? = some u) (first : count t ≠ 0) (second : count u ≠ 0) : r = r' := by
  rw [total] at once
  generalize f.trees = trees at once tree tree'
  induction trees generalizing r r' with
  | nil => cases tree
  | cons v ts ih =>
    have counted (w : Tree) (n : Nat) (found : ts[n]? = some w) : count w ≤ (ts.map count).sum :=
      List.le_sum_of_mem (List.mem_map_of_mem (List.mem_of_getElem? found))
    rw [List.map_cons, List.sum_cons] at once
    rcases r with _ | r <;> rcases r' with _ | r'
    · rfl
    · cases tree
      have more := counted u r' tree'
      omega
    · cases tree'
      have more := counted t r tree
      omega
    · rw [ih (by omega) tree tree']

/-- Where a token is not held, its replacement leaves no trace. -/
theorem trees_graft_of_ne (once : f.total (·.holds k) ≤ 1) (tree : f.trees[r]? = some t)
    (holding : t.holds k ≠ 0) (other : r' ≠ r) : (f.graft k new).trees[r']? = f.trees[r']? := by
  rw [graft, List.getElem?_map]
  cases tree' : f.trees[r']? with
  | none => rfl
  | some u =>
    refine congrArg some (Tree.graft_of_not_held (by_contra fun holding' => ?_) new)
    exact other (eq_of_total once tree' tree holding' holding)

theorem trees_graft (tree : f.trees[r]? = some t) :
    (f.graft k new).trees[r]? = some (t.graft k new) := by
  rw [graft, List.getElem?_map, tree]
  rfl

/-! ### Ends -/

theorem end?_plant (f : Forest) (r : Nat) : (f.change .plant).end? r = f.end? r := by
  rcases Nat.lt_or_ge r f.trees.length with before | after
  · rw [end?, change, List.getElem?_append_left before]
    rfl
  · rw [end?, end?, List.getElem?_eq_none after, change, List.getElem?_append_right after]
    cases r - f.trees.length <;> rfl

/-- A tree that has come to its end stays as it is. -/
theorem trees_move {e : End} (tree : f.trees[r]? = some t) (ended : t.result? = some e) (m : Move) :
    (f.move m).trees[r]? = some t := by
  have grafted (k : Nat) (new : Tree) : (f.graft k new).trees[r]? = some t := by
    rw [trees_graft tree, Tree.graft_of_not_held]
    by_contra holding
    rw [Tree.result?_eq_none_iff.mpr ⟨k, holding⟩] at ended
    cases ended
  rw [move]
  cases m with
  | plant => exact List.getElem?_append_left (List.getElem?_eq_some_iff.mp tree).1 ▸ tree
  | derive k =>
    rw [change]
    split
    · exact grafted k _
    · exact tree
  | split k count =>
    cases count with
    | zero => exact grafted k _
    | succ others =>
      rw [change]
      split
      · exact grafted k _
      · exact tree
  | release k how => exact grafted k _
  | ask c q =>
    rw [change]
    split <;> exact tree

theorem end?_graft (unended : new.result? = none) (r : Nat) :
    (f.graft k new).end? r = f.end? r := by
  rw [end?, graft, List.getElem?_map, Option.bind_map]
  exact congrArg f.trees[r]?.bind (funext fun t => Tree.result?_graft unended)

end Forest

theorem Ledger.length_resolve {σ : Type} (l : Ledger) (t : Token σ) (o : Outcome) :
    (l.resolve t o).1.splits.length = l.splits.length := by
  induction t generalizing l o with
  | root s => rfl
  | derived t ih => exact ih l o
  | part n t ih =>
    have recorded : (l.record n o).1.splits.length = l.splits.length := by
      rw [record]
      split
      · rfl
      · exact List.length_set
    rw [resolve]
    split
    · next eq => rw [← recorded, eq]
    · next eq => rw [ih, ← recorded, eq]

/-! ### The ledger and the trees -/

/-- Tokens by number. -/
abbrev Held := Nat → Option (Token Nat)

namespace Held

def without (h : Held) (k : Nat) : Held := fun j => if j = k then none else h j

/-- Adds tokens, whose numbers begin with `first`. -/
def add (h : Held) (first : Nat) (new : List (Token Nat)) : Held :=
  fun j => if j < first then h j else new[j - first]?

end Held

/-- The ledger and the tokens that are held stand for the trees; tokens and splits occur in them
    once. -/
structure Stand (l : Ledger) (h : Held) (f : Forest) : Prop where
  splits : l.splits.length = f.splits
  stands : ∀ (r : Nat) (t : Tree), f.trees[r]? = some t → t.Stands l h (.root r)
  past : ∀ t ∈ f.trees, t.Past f.time
  holds : ∀ k, f.total (·.holds k) = if (h k).isSome then 1 else 0
  bears : ∀ n, f.total (·.bears n) = if n < f.splits then 1 else 0
  early : ∀ k, f.tokens ≤ k → h k = none

namespace Stand

variable {l : Ledger} {h : Held} {f : Forest} {k : Nat} {u : Token Nat}

theorem later (stand : Stand l h f) : Stand l h f.tick :=
  { stand with past := fun t mem => Tree.past_mono (Nat.le_succ _) (stand.past t mem) }

theorem holds_once (stand : Stand l h f) (token : h k = some u) : f.total (·.holds k) = 1 := by
  rw [stand.holds, token]
  rfl

theorem bears_once (stand : Stand l h f) (n : Nat) : f.total (·.bears n) ≤ 1 := by
  rw [stand.bears]
  split <;> omega

theorem lt_tokens (stand : Stand l h f) {t : Tree} (mem : t ∈ f.trees) (holding : t.holds k ≠ 0) :
    k < f.tokens := by
  by_contra late
  obtain ⟨r, tree⟩ := List.getElem?_of_mem mem
  have total := Forest.le_total (·.holds k) tree
  rw [stand.holds, stand.early k (Nat.le_of_not_lt late)] at total
  exact holding (Nat.le_zero.mp total)

theorem lt_splits (stand : Stand l h f) {t : Tree} (mem : t ∈ f.trees) {n : Nat}
    (bearing : t.bears n ≠ 0) : n < f.splits := by
  by_contra late
  obtain ⟨r, tree⟩ := List.getElem?_of_mem mem
  have total := Forest.le_total (·.bears n) tree
  rw [stand.bears, if_neg late] at total
  exact bearing (Nat.le_zero.mp total)

theorem held_iff (stand : Stand l h f) : (h k).isSome ↔ ∃ t ∈ f.trees, t.holds k ≠ 0 := by
  rw [← Forest.total_ne_zero_iff (·.holds k), stand.holds]
  split <;> simp_all

theorem graft_of_none (stand : Stand l h f) (nobody : h k = none) (new : Tree) :
    f.graft k new = f := by
  have absent (t : Tree) (mem : t ∈ f.trees) : t.graft k new = t := by
    refine Tree.graft_of_not_held (by_contra fun holding => ?_) new
    simpa [nobody] using stand.held_iff.mpr ⟨t, mem, holding⟩
  rw [Forest.graft, List.map_congr_left absent, List.map_id']

/-- A token that is held is in one of the trees, once. -/
theorem exists_tree (stand : Stand l h f) (token : h k = some u) :
    ∃ (r : Nat) (t : Tree), f.trees[r]? = some t ∧ t.holds k = 1 := by
  obtain ⟨t, mem, holding⟩ := stand.held_iff.mp (by rw [token]; rfl)
  obtain ⟨r, tree⟩ := List.getElem?_of_mem mem
  have le := Forest.le_total (·.holds k) tree
  rw [stand.holds_once token] at le
  exact ⟨r, t, tree, by omega⟩

theorem plant (stand : Stand l h f) :
    Stand l (h.add f.tokens [.root f.trees.length])
      { f with trees := f.trees ++ [.held f.tokens], tokens := f.tokens + 1 } where
  splits := stand.splits
  stands r t tree := by
    rcases getElem?_concat_cases tree with old | ⟨rfl, rfl⟩
    · refine (stand.stands r t old).frame (fun _ _ => rfl) fun j holding => ?_
      exact if_pos (stand.lt_tokens (List.mem_of_getElem? old) holding)
    · refine (if_neg (Nat.lt_irrefl _)).trans ?_
      rw [Nat.sub_self]
      rfl
  past t mem := by
    rcases List.mem_append.mp mem with old | fresh
    · exact stand.past t old
    · cases List.mem_singleton.mp fresh
      trivial
  holds j := by
    have counted :
        Forest.total { f with trees := f.trees ++ [.held f.tokens], tokens := f.tokens + 1 }
          (·.holds j) = f.total (·.holds j) + if f.tokens = j then 1 else 0 := by
      simp [Forest.total, Tree.holds]
    rw [counted, stand.holds, Held.add]
    by_cases early : j < f.tokens
    · simp [early, Nat.ne_of_gt early]
    · rw [if_neg early, stand.early j (Nat.le_of_not_lt early)]
      by_cases same : f.tokens = j
      · simp [same]
      · have later : [Completion.Token.root f.trees.length][j - f.tokens]? = none :=
          List.getElem?_eq_none (by simp; omega)
        simp [same, later]
  bears n := by
    have counted :
        Forest.total { f with trees := f.trees ++ [.held f.tokens], tokens := f.tokens + 1 }
          (·.bears n) = f.total (·.bears n) := by
      simp [Forest.total, Tree.bears]
    exact counted.trans (stand.bears n)
  early j late := by
    have late : f.tokens + 1 ≤ j := late
    rw [Held.add, if_neg (by omega), List.getElem?_eq_none (by simp; omega)]

/-- A token is replaced by something that is open. -/
theorem graft (stand : Stand l h f) (token : h k = some u) {new : Tree} {extra : List Split}
    {tokens : List (Token Nat)} (unended : new.result? = none) (past : new.Past f.time)
    (stands : new.Stands ⟨l.splits ++ extra⟩ ((h.without k).add f.tokens tokens) u)
    (holds : ∀ j, new.holds j = if f.tokens ≤ j ∧ j < f.tokens + tokens.length then 1 else 0)
    (bears : ∀ n, new.bears n = if f.splits ≤ n ∧ n < f.splits + extra.length then 1 else 0) :
    Stand ⟨l.splits ++ extra⟩ ((h.without k).add f.tokens tokens)
      { f.graft k new with
        tokens := f.tokens + tokens.length, splits := f.splits + extra.length } where
  splits := by rw [List.length_append, stand.splits]
  stands r t' tree' := by
    rw [Forest.graft, List.getElem?_map] at tree'
    obtain ⟨t, tree, rfl⟩ := Option.map_eq_some_iff.mp tree'
    have mem := List.mem_of_getElem? tree
    refine (stand.stands r t tree).graft unended (fun v token' => ?_) (fun n bearing => ?_)
      fun j holding other => ?_
    · rw [Option.some.inj (token'.symm.trans token)]
      exact stands
    · exact List.getElem?_append_left (by rw [stand.splits]; exact stand.lt_splits mem bearing)
    · rw [Held.add, if_pos (stand.lt_tokens mem holding), Held.without, if_neg other]
  past t' mem := by
    obtain ⟨t, among, rfl⟩ := List.mem_map.mp mem
    exact Tree.past_graft le_rfl (stand.past t among) past
  holds j := by
    refine (Forest.total_holds_graft j).trans ?_
    have before : k < f.tokens := by
      by_contra late
      rw [stand.early k (Nat.le_of_not_lt late)] at token
      cases token
    rw [stand.holds_once token, holds, stand.holds, Held.add, Held.without]
    by_cases early : j < f.tokens
    · by_cases same : j = k <;> simp [early, same, before]
    · have other : j ≠ k := by omega
      rw [stand.early j (Nat.le_of_not_lt early)]
      by_cases among : j - f.tokens < tokens.length <;> simp [early, other, among] <;> omega
  bears n := by
    refine (Forest.total_bears_graft n).trans ?_
    rw [stand.holds_once token, bears, stand.bears]
    dsimp only
    split <;> split <;> split <;> omega
  early j late := by
    have late : f.tokens + tokens.length ≤ j := late
    rw [Held.add, if_neg (by omega), List.getElem?_eq_none (by omega)]

/-- A token is settled: no more than one channel hears of it, at the end of its tree. -/
theorem settle (stand : Stand l h f) (token : h k = some u) (o : Outcome) :
    ∃ r l', Stand l' (h.without k) (f.graft k (.settled f.time o)).tick ∧
      (∀ r' ≠ r, (f.graft k (.settled f.time o)).end? r' = f.end? r') ∧ f.end? r = none ∧
      ((f.graft k (.settled f.time o)).end? r = none ∧ l.resolve u o = (l', none) ∨
        ∃ whole, (f.graft k (.settled f.time o)).end? r = some (f.time, whole) ∧
          l.resolve u o = (l', some (r, whole))) := by
  obtain ⟨r, t, tree, holds_once⟩ := stand.exists_tree token
  have holding : t.holds k ≠ 0 := by omega
  have bears_once := stand.bears_once
  obtain ⟨l', splits, stands, ended⟩ := (stand.stands r t tree).resolve_held holds_once
    (fun n => (Forest.le_total (·.bears n) tree).trans (bears_once n))
    (stand.past t (List.mem_of_getElem? tree)) token o fun j other =>
      (if_neg other : h.without k j = h j)
  have here : (f.graft k (.settled f.time o)).trees[r]? = some (t.graft k (.settled f.time o)) :=
    Forest.trees_graft tree
  have elsewhere (r') (other : r' ≠ r) :
      (f.graft k (.settled f.time o)).trees[r']? = f.trees[r']? :=
    Forest.trees_graft_of_ne (stand.holds_once token).le tree holding other
  have length : l'.splits.length = l.splits.length := by
    have kept := Ledger.length_resolve l u o
    rcases ended with ⟨-, resolved⟩ | ⟨whole, -, resolved⟩
    · rwa [resolved] at kept
    · rwa [resolved] at kept
  refine ⟨r, l', ?_, fun r' other => ?_, ?_, ?_⟩
  · refine
      { splits := length.trans stand.splits
        stands := fun r' t' tree' => ?_
        past := fun t' mem => ?_
        holds := fun j => ?_
        bears := fun n => ?_
        early := fun j late => ?_ }
    · by_cases same : r' = r
      · subst same
        rw [Option.some.inj (tree'.symm.trans here)]
        exact stands
      · have there := (elsewhere r' same).symm.trans tree'
        refine (stand.stands r' t' there).frame (fun n bearing => splits n ?_) fun j holding' => ?_
        · by_contra bearing'
          exact same (Forest.eq_of_total (bears_once n) there tree bearing bearing')
        · refine if_neg ?_
          rintro rfl
          exact same (Forest.eq_of_total (stand.holds_once token).le there tree holding' holding)
    · obtain ⟨t, among, rfl⟩ := List.mem_map.mp mem
      exact Tree.past_graft (Nat.le_succ _) (stand.past t among) (Nat.lt_succ_self f.time)
    · refine (Forest.total_holds_graft j).trans ?_
      rw [stand.holds, Held.without]
      by_cases same : j = k <;> simp [same, Tree.holds]
    · refine (Forest.total_bears_graft n).trans ?_
      rw [stand.bears]
      rfl
    · rw [Held.without, stand.early j late, ite_self]
  · rw [Forest.end?, Forest.end?, elsewhere r' other]
  · rw [Forest.end?, tree]
    exact Tree.result?_eq_none_iff.mpr ⟨k, holding⟩
  · rw [Forest.end?, here]
    exact ended

end Stand

end WebSocketEngine.Completion
