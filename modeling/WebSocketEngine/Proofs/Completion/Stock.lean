import WebSocketEngine.Proofs.Completion.Forest

/-!
Tokens resolve their root exactly once, whatever is built from them.

A stock is all that there is of some channels: the tokens that are held, the ledger, the futures and
what the channels have heard.  Whatever is done with it, it is never at odds with the forest of what
is to become of the tokens (`agrees_move`): a channel hears of the end of its tree when its last
token goes, and nothing else ever (`outcomes_of_moves`).

A callback that goes on from within a resolution does so when the ledger and the futures are done
with it; so its moves are the next ones.

A stock knows no limits: it shares tokens out among any number of parts, and whoever polls a future
has patience left.  An exchange has limits, and is a stock as long as it keeps within them
(`named_run`, where tokens have names).
-/

namespace WebSocketEngine.Completion

/-- All that there is of some channels. -/
structure Stock where
  ledger : Ledger
  /-- The tokens that nobody has let go of. -/
  held : Held
  /-- Tokens so far. -/
  tokens : Nat
  /-- The futures of the channels. -/
  futures : List Future
  /-- Moves so far. -/
  time : Nat
  /-- What the channels have heard, and when. -/
  heard : List (Nat × End)
  answers : List Answer

namespace Stock

def empty : Stock := ⟨.empty, fun _ => none, 0, [], 0, [], []⟩

/-- Tokens are held that were not there before. -/
def hold (s : Stock) (new : List (Token Nat)) : Stock :=
  { s with held := s.held.add s.tokens new, tokens := s.tokens + new.length }

/-- A token is held no more. -/
def letGo (s : Stock) (k : Nat) : Stock := { s with held := s.held.without k }

def deliver (s : Stock) : Option (Delivery Nat) → Stock
  | none => s
  | some (r, o) =>
    { s with heard := s.heard ++ [(r, s.time, o)], futures := s.futures.modify r (·.deliver o) }

/-- Resolves a token that is held no more. -/
def resolve (s : Stock) (t : Token Nat) (o : Outcome) : Stock :=
  let (ledger, d) := s.ledger.resolve t o
  { s with ledger }.deliver d

/-- Shares out a token that is held no more. -/
def split (s : Stock) (t : Token Nat) (count : Nat) : Stock :=
  let (ledger, parts, d) := s.ledger.split t count
  ({ s with ledger }.hold parts).deliver d

def change (s : Stock) : Move → Stock
  | .plant => { s.hold [.root s.futures.length] with futures := s.futures ++ [.fresh] }
  | .derive k =>
    match s.held k with
    | some t => (s.letGo k).hold [.derived t]
    | none => s
  | .split k count =>
    match s.held k with
    | some t => (s.letGo k).split t count
    | none => s
  | .release k how =>
    match s.held k with
    | some t => (s.letGo k).resolve t how.outcome
    | none => s
  | .ask r q =>
    match s.futures[r]? with
    | some f =>
      { s with futures := s.futures.set r (q.ask f).1, answers := s.answers ++ [(q.ask f).2] }
    | none => s

def tick (s : Stock) : Stock := { s with time := s.time + 1 }

def move (s : Stock) (m : Move) : Stock := (s.change m).tick

def after (ms : List Move) : Stock := ms.foldl move empty

/-- What a channel has heard, and when. -/
def heardBy (s : Stock) (r : Nat) : List End := (s.heard.filter (·.1 = r)).map (·.2)

end Stock

/-! ### Futures -/

/-- What a future has in store or has shown already. -/
def Future.Shows (f : Future) : Option Outcome → Prop
  | none => f = .fresh
  | some o => f = ⟨.full o, none⟩ ∨ f.seen = some o

/-- Looking at a future gives what it shows, and leaves that as it is. -/
theorem Question.ask_of_shows {f : Future} {o : Option Outcome} (shown : f.Shows o)
    (q : Question) : (q.ask f).1.Shows o ∧ (q.ask f).2 = q.answer o := by
  cases o with
  | none =>
    cases shown
    cases q <;> exact ⟨rfl, rfl⟩
  | some o =>
    rcases f with ⟨inbox, seen⟩
    rcases shown with fresh | seen
    · cases fresh
      cases q <;> exact ⟨.inr rfl, rfl⟩
    · cases seen
      cases q <;> exact ⟨.inr rfl, rfl⟩

/-! ### Never at odds -/

namespace Stock

theorem resolve_eq {s : Stock} {t : Token Nat} {o : Outcome} {l : Ledger}
    {d : Option (Delivery Nat)} (resolved : s.ledger.resolve t o = (l, d)) :
    s.resolve t o = { s with ledger := l }.deliver d := by
  rw [resolve, resolved]

/-- To share a token out among nobody is to resolve it. -/
theorem split_zero {s : Stock} (t : Token Nat) (early : ∀ j, s.tokens ≤ j → s.held j = none) :
    s.split t 0 = s.resolve t (.ok ()) := by
  have nobody : s.held.add s.tokens [] = s.held := by
    funext j
    rw [Held.add]
    split
    · rfl
    · next late => exact (early j (Nat.le_of_not_lt late)).symm
  have same (l : Ledger) : { s with ledger := l }.hold [] = { s with ledger := l } := by
    rw [hold, nobody]
    rfl
  exact congrArg (Stock.deliver · (s.ledger.resolve t (.ok ())).2) (same _)

theorem heardBy_append (s : Stock) (r r' : Nat) (e : End) :
    heardBy { s with heard := s.heard ++ [(r, e)] } r' =
      s.heardBy r' ++ if r = r' then [e] else [] := by
  by_cases here : r = r' <;> simp [heardBy, here]

/-- The stock and the forest are not at odds. -/
structure Agrees (s : Stock) (f : Forest) : Prop where
  stand : Stand s.ledger s.held f
  tokens : s.tokens = f.tokens
  futures : s.futures.length = f.trees.length
  time : s.time = f.time
  answers : s.answers = f.answers
  heard : ∀ r, s.heardBy r = (f.end? r).toList
  shows : ∀ (r : Nat) (w : Future), s.futures[r]? = some w → w.Shows ((f.end? r).map (·.2))

namespace Agrees

variable {s : Stock} {f : Forest} {k : Nat} {u : Token Nat}

theorem start : Agrees .empty .empty where
  stand :=
    { splits := rfl
      stands := by simp [Forest.empty]
      past := by simp [Forest.empty]
      holds := fun _ => rfl
      bears := fun _ => rfl
      early := fun _ _ => rfl }
  tokens := rfl
  futures := rfl
  time := rfl
  answers := rfl
  heard _ := rfl
  shows := by simp [Stock.empty]

theorem later (agrees : Agrees s f) : Agrees s.tick f.tick :=
  { agrees with
    stand := agrees.stand.later
    time := congrArg (· + 1) agrees.time }

/-- A token is replaced by something that is open: nobody hears of it. -/
theorem graft (agrees : Agrees s f) (token : s.held k = some u) (new : Tree) (extra : List Split)
    (tokens : List (Token Nat)) (unended : new.result? = none) (past : new.Past f.time)
    (stands : new.Stands ⟨s.ledger.splits ++ extra⟩ ((s.held.without k).add f.tokens tokens) u)
    (holds : ∀ j, new.holds j = if f.tokens ≤ j ∧ j < f.tokens + tokens.length then 1 else 0)
    (bears : ∀ n, new.bears n = if f.splits ≤ n ∧ n < f.splits + extra.length then 1 else 0) :
    Agrees { (s.letGo k).hold tokens with ledger := ⟨s.ledger.splits ++ extra⟩ }
      { f.graft k new with
        tokens := f.tokens + tokens.length, splits := f.splits + extra.length } := by
  have ends (r : Nat) : (f.graft k new).end? r = f.end? r := Forest.end?_graft unended r
  exact
    { stand := by
        show Stand _ ((s.held.without k).add s.tokens tokens) _
        rw [agrees.tokens]
        exact agrees.stand.graft token unended past stands holds bears
      tokens := congrArg (· + tokens.length) agrees.tokens
      futures := agrees.futures.trans (List.length_map _).symm
      time := agrees.time
      answers := agrees.answers
      heard := fun r => (agrees.heard r).trans (congrArg Option.toList (ends r).symm)
      shows := fun r w future => by
        have shown := agrees.shows r w future
        rwa [← ends r] at shown }

/-- A token is settled: if its tree comes to its end, its channel hears of that, and nobody else. -/
theorem settle (agrees : Agrees s f) (token : s.held k = some u) (o : Outcome) :
    Agrees ((s.letGo k).resolve u o).tick (f.graft k (.settled f.time o)).tick := by
  obtain ⟨r, l, stand, elsewhere, unended, ended⟩ := agrees.stand.settle token o
  rcases ended with ⟨still, resolved⟩ | ⟨whole, ended, resolved⟩
  · have ends (r') : (f.graft k (.settled f.time o)).end? r' = f.end? r' := by
      by_cases here : r' = r
      · rw [here, still, unended]
      · exact elsewhere r' here
    rw [resolve_eq (s := s.letGo k) resolved]
    exact
      { stand
        tokens := agrees.tokens
        futures := agrees.futures.trans (List.length_map _).symm
        time := congrArg (· + 1) agrees.time
        answers := agrees.answers
        heard := fun r => (agrees.heard r).trans (congrArg Option.toList (ends r).symm)
        shows := fun r w future => by
          have shown := agrees.shows r w future
          rwa [← ends r] at shown }
  · rw [resolve_eq (s := s.letGo k) resolved]
    refine
      { stand
        tokens := agrees.tokens
        futures := (List.length_modify _ _ _).trans (agrees.futures.trans (List.length_map _).symm)
        time := congrArg (· + 1) agrees.time
        answers := agrees.answers
        heard := fun r' => ?_
        shows := fun r' w future => ?_ }
    · refine (heardBy_append s r r' (s.time, whole)).trans ?_
      rw [agrees.heard]
      by_cases here : r = r'
      · subst here
        rw [if_pos rfl, unended, agrees.time]
        exact (congrArg Option.toList ended).symm
      · rw [if_neg here, List.append_nil]
        exact (congrArg Option.toList (elsewhere r' (Ne.symm here))).symm
    · have modified : (s.futures.modify r (·.deliver whole))[r']? = some w := future
      rw [List.getElem?_modify] at modified
      obtain ⟨v, before, rfl⟩ := Option.map_eq_some_iff.mp modified
      have shown := agrees.shows r' v before
      by_cases here : r = r'
      · subst here
        rw [unended] at shown
        have fresh : v = .fresh := shown
        have ready : Future.Shows (v.deliver whole) (some whole) := .inl (by rw [fresh]; rfl)
        rw [if_pos rfl]
        have heard : some whole = ((f.graft k (.settled f.time o)).end? r).map (·.2) := by
          rw [ended]
          rfl
        rwa [heard] at ready
      · rw [if_neg here]
        rwa [← elsewhere r' (Ne.symm here)] at shown

/-! ### Moves -/

theorem ask (agrees : Agrees s f) (r : Nat) (q : Question) :
    Agrees (s.change (.ask r q)) (f.change (.ask r q)) := by
  rw [Forest.change, ← agrees.futures]
  cases future : s.futures[r]? with
  | none =>
    rw [if_neg (Nat.not_lt.mpr (List.getElem?_eq_none_iff.mp future))]
    simp only [change, future]
    exact agrees
  | some w =>
    obtain ⟨shown, answer⟩ := q.ask_of_shows (agrees.shows r w future)
    have there := (List.getElem?_eq_some_iff.mp future).1
    rw [if_pos there]
    simp only [change, future]
    refine
      { stand := { agrees.stand with }
        tokens := agrees.tokens
        futures := List.length_set.trans agrees.futures
        time := agrees.time
        answers := by rw [answer, agrees.answers]
        heard := agrees.heard
        shows := fun r' v future' => ?_ }
    by_cases here : r = r'
    · subst here
      rw [List.getElem?_set_self there] at future'
      cases future'
      exact shown
    · rw [List.getElem?_set_ne here] at future'
      exact agrees.shows r' v future'

theorem plant (agrees : Agrees s f) : Agrees (s.change .plant) (f.change .plant) := by
  have ends := f.end?_plant
  refine
    { stand := ?_
      tokens := congrArg (· + 1) agrees.tokens
      futures := ?_
      time := agrees.time
      answers := agrees.answers
      heard := fun r => (agrees.heard r).trans (congrArg Option.toList (ends r).symm)
      shows := fun r w future => ?_ }
  · show Stand _ (s.held.add s.tokens [.root s.futures.length]) _
    rw [agrees.tokens, agrees.futures]
    exact agrees.stand.plant
  · show (s.futures ++ [Future.fresh]).length = (f.trees ++ [Tree.held f.tokens]).length
    rw [List.length_append, List.length_append, agrees.futures]
    rfl
  · rw [ends]
    rcases getElem?_concat_cases future with old | ⟨rfl, rfl⟩
    · exact agrees.shows r w old
    · have unheard : f.end? s.futures.length = none := by
        rw [agrees.futures, Forest.end?, List.getElem?_eq_none le_rfl]
        rfl
      rw [unheard]
      rfl

theorem derive (agrees : Agrees s f) (k : Nat) :
    Agrees (s.change (.derive k)) (f.change (.derive k)) := by
  rw [Forest.change]
  cases token : s.held k with
  | none =>
    rw [if_neg fun held => by simpa [token] using agrees.stand.held_iff.mpr held]
    simp only [change, token]
    exact agrees
  | some t =>
    rw [if_pos (agrees.stand.held_iff.mp (by rw [token]; rfl))]
    simp only [change, token]
    have grafted := agrees.graft token (.derived (.held f.tokens)) [] [.derived t] rfl trivial ?_
      (fun j => ?_) fun n => ?_
    · rw [List.append_nil] at grafted
      exact grafted
    · refine (if_neg (Nat.lt_irrefl _)).trans ?_
      rw [Nat.sub_self]
      rfl
    · simp only [Tree.holds, List.length_singleton]
      split <;> split <;> omega
    · rw [if_neg (by simp)]
      rfl

theorem split (agrees : Agrees s f) (k others : Nat) :
    Agrees (s.change (.split k (others + 1))) (f.change (.split k (others + 1))) := by
  rw [Forest.change]
  cases token : s.held k with
  | none =>
    rw [if_neg fun held => by simpa [token] using agrees.stand.held_iff.mpr held]
    simp only [change, token]
    exact agrees
  | some t =>
    rw [if_pos (agrees.stand.held_iff.mp (by rw [token]; rfl))]
    simp only [change, token]
    have grafted := agrees.graft token
      (.split f.splits fun i : Fin (others + 1) => .held (f.tokens + i)) [⟨others + 1, none⟩]
      (List.replicate (others + 1) (.part f.splits t)) ?_ (fun _ => trivial) ?_
      (fun j => ?_) fun n => ?_
    · have shared : s.ledger.split t (others + 1) = (⟨s.ledger.splits ++ [⟨others + 1, none⟩]⟩,
          List.replicate (others + 1) (.part s.ledger.splits.length t), none) :=
        if_neg (Nat.succ_ne_zero others)
      rw [Stock.split, show (s.letGo k).ledger.split t (others + 1) = _ from shared,
        agrees.stand.splits]
      rw [List.length_replicate] at grafted
      exact grafted
    · exact Tree.result?_eq_none_iff.mpr ⟨f.tokens, Tree.holds_of_part 0 (by simp [Tree.holds])⟩
    · refine ⟨?_, fun i => ?_⟩
      · rw [← agrees.stand.splits, List.getElem?_concat_length]
        exact congrArg some (End.tally_open (others + 1)).symm
      · refine (if_neg (by omega)).trans ?_
        rw [Nat.add_sub_cancel_left, List.getElem?_replicate, if_pos i.isLt]
    · rw [List.length_replicate]
      exact Tree.holds_row f.tokens j others
    · simp only [Tree.bears, Finset.sum_const_zero, List.length_singleton]
      split <;> split <;> omega

/-- A token is let go of, if it is held at all. -/
theorem release (agrees : Agrees s f) (k : Nat) (how : Release) :
    Agrees (s.move (.release k how)) (f.move (.release k how)) := by
  rw [Stock.move, Forest.move, Forest.change]
  cases token : s.held k with
  | none =>
    rw [agrees.stand.graft_of_none token]
    simp only [change, token]
    exact agrees.later
  | some t =>
    simp only [change, token]
    exact agrees.settle token how.outcome

theorem change_split_zero (agrees : Agrees s f) (k : Nat) :
    s.change (.split k 0) = s.change (.release k (.resolve (.ok ()))) := by
  simp only [change]
  cases s.held k with
  | none => rfl
  | some t =>
    refine split_zero t fun j late => ?_
    rw [show (s.letGo k).held j = s.held.without k j from rfl, Held.without,
      agrees.stand.early j (agrees.tokens ▸ late), ite_self]

theorem move (agrees : Agrees s f) (m : Move) : Agrees (s.move m) (f.move m) := by
  cases m with
  | plant => exact agrees.plant.later
  | derive k => exact (agrees.derive k).later
  | split k count =>
    cases count with
    | zero =>
      rw [Stock.move, agrees.change_split_zero k]
      exact agrees.release k (.resolve (.ok ()))
    | succ others => exact (agrees.split k others).later
  | release k how => exact agrees.release k how
  | ask r q => exact (agrees.ask r q).later

theorem after (ms : List Move) : Agrees (.after ms) (.after ms) := by
  induction ms using List.reverseRecOn with
  | nil => exact start
  | append_singleton ms m ih =>
    rw [Stock.after, Forest.after, List.foldl_concat, List.foldl_concat]
    exact ih.move m

end Agrees

end Stock

/-! ### Outcomes -/

/-- A channel hears of the end of its tree, when that comes, and of nothing else.  The tree is open
    as long as one of its tokens is held; it ends with the last of its leaves, and well if all of
    them have.  No split is told of more parts than it waits for, and futures answer by the end of
    the tree, which stays. -/
theorem outcomes_of_moves (ms : List Move) :
    let s := Stock.after ms
    let f := Forest.after ms
    s.answers = f.answers ∧
      (∀ (k : Nat) (u : Token Nat), s.held k = some u → u.splits.Nodup ∧
        ∀ n ∈ u.splits, ∃ w, s.ledger.splits[n]? = some w ∧ 0 < w.remaining) ∧
      ∀ (r : Nat) (t : Tree), f.trees[r]? = some t →
        s.heardBy r = t.result?.toList ∧
        (t.result? = none ↔ ∃ k, (s.held k).isSome ∧ t.holds k ≠ 0) ∧
        ∀ e, t.result? = some e →
          e.1 = End.latest t.ends ∧
          (e.2 = .ok () ↔ ∀ d ∈ t.ends, d.2 = .ok ()) ∧
          ∀ ns, (Forest.after (ms ++ ns)).trees[r]? = some t := by
  intro s f
  have agrees : s.Agrees f := .after ms
  refine ⟨agrees.answers, fun k u token => ?_, fun r t tree => ⟨?_, ?_, fun e ended =>
    ⟨Tree.time_of_ends ended, Tree.ok_iff ended, fun ns => ?_⟩⟩⟩
  · obtain ⟨r, t, tree, once⟩ := agrees.stand.exists_tree token
    obtain ⟨v, above, token', path, nodup, waiting⟩ :=
      (agrees.stand.stands r t tree).exists_token (k := k)
        (fun n => (Forest.le_total (·.bears n) tree).trans (agrees.stand.bears_once n))
        (by rw [once]; exact one_ne_zero)
    rw [Option.some.inj (token.symm.trans token'), path]
    exact ⟨by simpa [Token.splits] using nodup, fun n mem =>
      (waiting n (by simpa [Token.splits] using mem)).2⟩
  · rw [agrees.heard, Forest.end?, tree]
    rfl
  · rw [Tree.result?_eq_none_iff]
    refine exists_congr fun k => ⟨fun holding => ⟨?_, holding⟩, fun holding => holding.2⟩
    exact agrees.stand.held_iff.mpr ⟨t, List.mem_of_getElem? tree, holding⟩
  · induction ns using List.reverseRecOn with
    | nil => rwa [List.append_nil]
    | append_singleton ns m ih =>
      rw [← List.append_assoc, Forest.after, List.foldl_concat]
      exact Forest.trees_move ih ended m

/-- Of two parts that fail, the one that was dropped first decides. -/
example :
    (Stock.after [.plant, .split 0 3, .derive 3, .release 4 .drop,
      .release 1 (.resolve (.error (.application "late"))), .ask 0 .done,
      .release 2 (.resolve (.ok ()))]).heardBy 0 = [(6, .error .cancelled)] := by
  decide

end WebSocketEngine.Completion
