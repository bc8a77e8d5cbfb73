import WebSocketEngine.Proofs.Completion.Names

/-!
What is done with an exchange comes down to moves of a stock.

To give a name to another token is one move more, since the one that had it is dropped:

    before      "a" ▸ 0, "a.1" ▸ 4
    exchange    split "a" 2
    stock       split 0 2, release 4 drop
    after       "a.0" ▸ 5, "a.1" ▸ 6

An exchange is more careful than a stock in two places.  It does not share a token out among more
than `Ledger.maxParts`; and a task without patience is told that nothing has arrived, which leaves
everything as it is (`answer_put`).  So it is a stock at all times, as long as parts have room
(`named_run`), and whoever is told of anything is told of a tree (`told_of_run`).
-/

namespace WebSocketEngine.Completion

variable {sinks : List Listener} {t : Token Listener} {u : Token Nat}

/-- An exchange and the stock that it is, while some tokens have no names. -/
structure Named (x : Exchange) (s : Stock) (sinks : List Listener) (numbers : String → Option Nat)
    (loose : List (Token Listener × Nat)) : Prop where
  names : Names x s sinks numbers loose
  hears : Hears x s sinks

/-! ### Moves -/

/-- Moves lead from one stock to another. -/
def Stock.Becomes (s s' : Stock) : Prop := ∃ ms : List Move, s' = ms.foldl Stock.move s

namespace Stock.Becomes

variable {s s' s'' : Stock}

theorem refl (s : Stock) : s.Becomes s := ⟨[], rfl⟩

theorem move (s : Stock) (m : Move) : s.Becomes (s.move m) := ⟨[m], rfl⟩

theorem trans (first : s.Becomes s') (second : s'.Becomes s'') : s.Becomes s'' := by
  obtain ⟨ms, rfl⟩ := first
  obtain ⟨ns, rfl⟩ := second
  exact ⟨ms ++ ns, List.foldl_append.symm⟩

end Stock.Becomes

theorem Exchange.resolve_of_token {x : Exchange} {name : String} (token : x.token? name = some t)
    (how : Release) :
    x.resolve name how =
      Exchange.deliver { x.release name with ledger := (x.ledger.resolve t how.outcome).1 }
        (x.ledger.resolve t how.outcome).2 := by
  rw [resolve, token]

/-- How many channels there are makes no difference to a token that is let go of. -/
theorem Exchange.resolve_channels (x : Exchange) (channels : Nat) (name : String) (how : Release) :
    Exchange.resolve { x with channels } name how = { x.resolve name how with channels } := by
  cases token : x.token? name with
  | none =>
    have token' : Exchange.token? { x with channels } name = none := token
    rw [resolve, resolve, token, token']
  | some t =>
    rw [resolve_of_token token, resolve_of_token (x := { x with channels }) token]
    cases (x.ledger.resolve t how.outcome).2 with
    | none => rfl
    | some d =>
      rw [deliver_some, deliver_some]
      rfl

theorem Exchange.channels_resolve (x : Exchange) (name : String) (how : Release) :
    (x.resolve name how).channels = x.channels :=
  (congrArg channels (x.resolve_channels x.channels name how)).trans rfl

theorem Exchange.hold_channels (x : Exchange) (channels : Nat) (name : String)
    (t : Token Listener) :
    Exchange.hold { x with channels } name t = { x.hold name t with channels } := by
  rw [hold, resolve_channels]
  rfl

theorem Stock.move_release {s : Stock} {k : Nat} (held : s.held k = some u) (how : Release) :
    s.move (.release k how) =
      (Stock.deliver { s.letGo k with ledger := (s.ledger.resolve u how.outcome).1 }
        (s.ledger.resolve u how.outcome).2).tick := by
  rw [move, change, held]
  rfl

theorem Exchange.split_of_token {x : Exchange} {name : String} {count : Nat}
    (token : x.token? name = some t) (room : count ≤ Ledger.maxParts) :
    x.split name count = .ok
      ((x.ledger.split t count).2.1.zipIdx.foldl
        (fun y p => y.hold (name ++ "." ++ toString p.2) p.1)
        (Exchange.deliver { x.release name with ledger := (x.ledger.split t count).1 }
          (x.ledger.split t count).2.2),
      (x.ledger.split t count).2.1.length) := by
  rw [split, token]
  exact if_neg (Nat.not_lt.mpr room)

theorem Stock.move_split {s : Stock} {k : Nat} (held : s.held k = some u) (count : Nat) :
    s.move (.split k count) =
      (Stock.deliver
        (Stock.hold { s.letGo k with ledger := (s.ledger.split u count).1 }
          (s.ledger.split u count).2.1) (s.ledger.split u count).2.2).tick := by
  rw [move, change, held]
  rfl

namespace Named

variable {x : Exchange} {s : Stock} {numbers : String → Option Nat}
  {loose : List (Token Listener × Nat)}

/-- A token that has a name is let go of, and the ledger is told. -/
theorem settle (named : Named x s sinks numbers loose) {name : String} {k : Nat}
    (number : numbers name = some k) (l : Ledger) {d : Option (Delivery Listener)}
    {e : Option (Delivery Nat)} (arrives : Option.Rel (Arrives sinks) d e) :
    Named (Exchange.deliver { x.release name with ledger := l } d)
      (Stock.deliver { s.letGo k with ledger := l } e).tick sinks (renamed numbers name none)
      loose := by
  have names : Names { x.release name with ledger := l } { s.letGo k with ledger := l } sinks
      (renamed numbers name none) loose := (named.names.letGo number).frame rfl rfl rfl rfl
  have hears : Hears { x.release name with ledger := l } { s.letGo k with ledger := l } sinks :=
    { named.hears with }
  exact ⟨{ names.deliver d e with }, { hears.deliver arrives with }⟩

/-- Whatever token has a name is let go of, and the name stands for none. -/
theorem resolve (named : Named x s sinks numbers loose) (name : String) (how : Release) :
    ∃ s' numbers', s.Becomes s' ∧ numbers' name = none ∧
      Named (x.resolve name how) s' sinks numbers' loose := by
  cases token : x.token? name with
  | none =>
    refine ⟨s, numbers, .refl s, named.names.missing name token, ?_⟩
    rw [Exchange.resolve, token]
    exact named
  | some t =>
    obtain ⟨k, number, u, held, leads⟩ := named.names.found name t token
    obtain ⟨ledger, arrives⟩ := leads.resolve s.ledger how.outcome
    refine ⟨_, renamed numbers name none, .move s (.release k how), if_pos rfl, ?_⟩
    have settled := named.settle number (s.ledger.resolve u how.outcome).1 arrives
    rw [← named.names.ledger] at ledger settled
    rwa [Exchange.resolve_of_token token, Stock.move_release held, ledger, ← named.names.ledger]

/-- A loose token gets a name; the one that had it is dropped. -/
theorem hold {t : Token Listener} {k : Nat} (named : Named x s sinks numbers ((t, k) :: loose))
    (name : String) :
    ∃ s' numbers', s.Becomes s' ∧ Named (x.hold name t) s' sinks numbers' loose := by
  obtain ⟨s', numbers', becomes, free, freed⟩ := named.resolve name .drop
  exact ⟨s', _, becomes, freed.names.give free, { freed.hears with }⟩

/-- One loose token after another gets a name. -/
theorem holds (named : Named x s sinks numbers loose) (name : Nat → String) (first : Nat) :
    ∃ s' numbers', s.Becomes s' ∧
      Named (((loose.map (·.1)).zipIdx first).foldl (fun y p => y.hold (name p.2) p.1) x) s' sinks
        numbers' [] := by
  induction loose generalizing x s numbers first with
  | nil => exact ⟨s, numbers, .refl s, named⟩
  | cons p loose ih =>
    obtain ⟨s', numbers', becomes, held⟩ := named.hold (name first)
    obtain ⟨s'', numbers'', becomes', all⟩ := ih held (first + 1)
    exact ⟨s'', numbers'', becomes.trans becomes', all⟩

/-- A new token gets a name; the one that had it is dropped first. -/
theorem plant (named : Named x s sinks numbers []) (name : String) (l : Listener)
    (fresh : ∀ n, l = .channel n → .channel n ∉ sinks ∧ n < x.channels) :
    ∃ s' numbers', s.Becomes s' ∧ Named (x.hold name (.root l)) s' (sinks ++ [l]) numbers' [] ∧
      s'.futures[sinks.length]? = some .fresh ∧
      ∀ w ∈ (x.hold name (.root l)).watchers, .channel w.number ∈ sinks := by
  obtain ⟨s', numbers', becomes, free, freed⟩ := named.resolve name .drop
  have root : sinks.length = s'.futures.length := freed.hears.futures.symm
  have leads : Token.Leads (sinks ++ [l]) (.root l) (.root s'.futures.length) := by
    refine .root ?_
    rw [← root]
    exact List.getElem?_concat_length
  have planted := (freed.names.append [l]).hold (.cons leads .nil)
  refine ⟨s'.move .plant, renamed numbers' name (some s'.tokens), becomes.trans (.move s' .plant),
    ⟨?_, ?_⟩, ?_, fun w mem => ?_⟩
  · exact { planted.give free with }
  · rw [← x.channels_resolve name .drop] at fresh
    exact { freed.hears.plant l fresh [.root s'.futures.length] with }
  · rw [root]
    exact List.getElem?_concat_length
  · obtain ⟨r, sink, -⟩ := freed.hears.watchers w mem
    exact List.mem_of_getElem? sink

/-- A wrapper takes the place of a token. -/
theorem derive (named : Named x s sinks numbers []) (name wrapper : String) :
    ∃ s' numbers', s.Becomes s' ∧ Named (x.derive name wrapper) s' sinks numbers' [] := by
  cases token : x.token? name with
  | none =>
    refine ⟨s, numbers, .refl s, ?_⟩
    rw [Exchange.derive, token]
    exact named
  | some t =>
    obtain ⟨k, number, u, held, leads⟩ := named.names.found name t token
    have wrapped : Named (x.release name) (s.move (.derive k)) sinks (renamed numbers name none)
        [(.derived t, s.tokens)] := by
      have names := (named.names.letGo number).hold (.cons (.derived leads) .nil)
      rw [Stock.move, Stock.change, held]
      exact ⟨{ names with }, { named.hears with }⟩
    obtain ⟨s', numbers', becomes, given⟩ := wrapped.hold wrapper
    refine ⟨s', numbers', (Stock.Becomes.move s (.derive k)).trans becomes, ?_⟩
    rw [Exchange.derive, token]
    exact given

/-- Parts take the place of a token, if there is room for them. -/
theorem split (named : Named x s sinks numbers []) (name : String) {count : Nat}
    (room : count ≤ Ledger.maxParts) :
    ∃ y parts s' numbers', x.split name count = .ok (y, parts) ∧ s.Becomes s' ∧
      Named y s' sinks numbers' [] := by
  cases token : x.token? name with
  | none =>
    refine ⟨x, 0, s, numbers, ?_, .refl s, named⟩
    rw [Exchange.split, token]
  | some t =>
    obtain ⟨k, number, u, held, leads⟩ := named.names.found name t token
    obtain ⟨ledger, parts, arrives⟩ := leads.split s.ledger count
    rw [← named.names.ledger] at ledger parts arrives
    have shared : Named
        (Exchange.deliver { x.release name with ledger := (x.ledger.split t count).1 }
          (x.ledger.split t count).2.2) (s.move (.split k count)) sinks (renamed numbers name none)
        ((x.ledger.split t count).2.1.zipIdx s.tokens) := by
      have names := ((named.names.letGo number).hold parts).frame
        (y := { x.release name with ledger := (x.ledger.split t count).1 })
        (r := Stock.hold { s.letGo k with ledger := (x.ledger.split u count).1 }
          (x.ledger.split u count).2.1) ledger rfl rfl rfl
      have hears : Hears { x.release name with ledger := (x.ledger.split t count).1 }
          (Stock.hold { s.letGo k with ledger := (x.ledger.split u count).1 }
            (x.ledger.split u count).2.1) sinks := { named.hears with }
      rw [Stock.move_split held, ← named.names.ledger]
      exact ⟨{ names.deliver _ _ with }, { hears.deliver arrives with }⟩
    obtain ⟨s', numbers', becomes, all⟩ := shared.holds (fun i => name ++ "." ++ toString i) 0
    rw [List.zipIdx_map_fst] at all
    exact ⟨_, _, s', numbers', Exchange.split_of_token token room,
      (Stock.Becomes.move s _).trans becomes, all⟩

/-- Somebody looks at the future of a channel. -/
theorem ask {α : Type} (named : Named x s sinks numbers loose) (name : String)
    (question : Future → Future × α) {q : Question} (same : ∀ f, (question f).1 = (q.ask f).1) :
    ∃ s', s.Becomes s' ∧ Named (x.ask name question).1 s' sinks numbers loose := by
  cases future : x.future? name with
  | none =>
    refine ⟨s, .refl s, ?_⟩
    rw [Exchange.ask, future]
    exact named
  | some f =>
    obtain ⟨w, mem, rfl, r, sink, present⟩ := named.hears.exists_future future
    have looked := named.hears.look mem sink (q.ask f).1 (s.answers ++ [(q.ask f).2])
    refine ⟨_, .move s (.ask r q), ?_⟩
    rw [Exchange.ask, future, Stock.move, Stock.change, present]
    dsimp only
    rw [same f]
    exact ⟨{ named.names with }, { looked with }⟩

/-- A new channel and a future that watches it. -/
theorem openChannel (named : Named x s sinks numbers []) (name : String) :
    ∃ s' numbers', s.Becomes s' ∧
      Named (x.openChannel name) s' (sinks ++ [.channel x.channels]) numbers' [] := by
  let y : Exchange := { x with channels := x.channels + 1 }
  have more : Named y s sinks numbers [] :=
    ⟨{ named.names with }, { named.hears with
      channels := fun n mem => Nat.lt_succ_of_lt (named.hears.channels n mem) }⟩
  have fresh (n : Nat) (same : Listener.channel x.channels = .channel n) :
      .channel n ∉ sinks ∧ n < y.channels := by
    cases same
    exact ⟨fun mem => Nat.lt_irrefl _ (named.hears.channels _ mem), Nat.lt_succ_self _⟩
  obtain ⟨s', numbers', becomes, planted, future, watched⟩ :=
    more.plant name (.channel x.channels) fresh
  rw [show y.hold name _ = _ from x.hold_channels _ name _] at planted watched
  have watching := (planted.hears.dropFuture name).watch name List.getElem?_concat_length future
    fun w mem => ?_
  · have counted : (x.hold name (.root (.channel x.channels))).channels = x.channels :=
      x.channels_resolve name .drop
    rw [Exchange.openChannel]
    simp only [Exchange.dropFuture, counted]
    exact ⟨s', numbers', becomes, planted.names.frame planted.names.ledger rfl rfl rfl, watching⟩
  · obtain ⟨old, other⟩ := List.mem_filter.mp mem
    refine ⟨by simpa using other, ?_⟩
    exact Nat.ne_of_lt (named.hears.channels _ (watched w old))

end Named

/-! ### Deeds -/

/-- What can be done with an exchange. -/
inductive Deed
  | openChannel (name : String)
  | openCallback (name : String)
  | openSilent (name : String)
  | derive (name wrapper : String)
  | split (name : String) (count : Nat)
  | resolve (name : String) (how : Release)
  | ask (name : String) (question : Question)
  | dropFuture (name : String)

namespace Exchange

/-- Asks a future. -/
def put (x : Exchange) (name : String) : Question → Exchange × Option Answer
  | .outcome =>
    let (y, o) := x.ask name (·.tryOutcome)
    (y, o.map .outcome)
  | .done =>
    let (y, b) := x.ask name (·.isDone)
    (y, b.map .done)
  | .poll =>
    let (y, p) := x.poll name
    (y, p.map .polled)

def perform (x : Exchange) : Deed → Except Panic Exchange
  | .openChannel name => .ok (x.openChannel name)
  | .openCallback name => .ok (x.openCallback name)
  | .openSilent name => .ok (x.openSilent name)
  | .derive name wrapper => .ok (x.derive name wrapper)
  | .split name count => (x.split name count).map (·.1)
  | .resolve name how => .ok (x.resolve name how)
  | .ask name question => .ok (x.put name question).1
  | .dropFuture name => .ok (x.dropFuture name)

def run (x : Exchange) (ds : List Deed) : Except Panic Exchange := ds.foldlM perform x

end Exchange

/-- The parts have room. -/
def Deed.Fits : Deed → Prop
  | split _ count => count ≤ Ledger.maxParts
  | _ => True

/-- What is told of a future is what the future says, unless the task has no patience left. -/
theorem Exchange.answer_put {x : Exchange} {name : String} {f : Future}
    (future : x.future? name = some f) (q : Question) :
    (x.put name q).2 = some (q.ask f).2 ∨
      x.patience = 0 ∧ (x.put name q).2 = some (.polled .pending) := by
  have asked {α : Type} {y : Exchange} (same : y.watchers = x.watchers)
      (question : Future → Future × α) : (y.ask name question).2 = some (question f).2 := by
    have future' : y.future? name = some f := by
      rw [future?, same]
      exact future
    rw [ask, future']
  cases q with
  | outcome => exact .inl (congrArg (·.map Answer.outcome) (asked rfl (·.tryOutcome)))
  | done => exact .inl (congrArg (·.map Answer.done) (asked rfl (·.isDone)))
  | poll =>
    show (x.poll name).2.map Answer.polled = _ ∨ _ ∧ (x.poll name).2.map Answer.polled = _
    unfold poll
    split
    · exact .inl (congrArg (·.map Answer.polled) (asked rfl (·.poll)))
    · split
      · next tired => exact .inr ⟨tired, rfl⟩
      · exact .inl (congrArg (·.map Answer.polled)
          (asked (y := { x with patience := x.patience - 1 }) rfl (·.poll)))

namespace Named

variable {x : Exchange} {s : Stock} {numbers : String → Option Nat}

theorem put (named : Named x s sinks numbers []) (name : String) (q : Question) :
    ∃ s', s.Becomes s' ∧ Named (x.put name q).1 s' sinks numbers [] := by
  cases q with
  | outcome => exact named.ask name (·.tryOutcome) (q := .outcome) fun _ => rfl
  | done => exact named.ask name (·.isDone) (q := .done) fun _ => rfl
  | poll =>
    have less : Named { x with patience := x.patience - 1 } s sinks numbers [] :=
      ⟨{ named.names with }, { named.hears with }⟩
    show ∃ s', s.Becomes s' ∧ Named (x.poll name).1 s' sinks numbers []
    unfold Exchange.poll
    split
    · exact named.ask name (·.poll) (q := .poll) fun _ => rfl
    · split
      · exact ⟨s, .refl s, named⟩
      · exact less.ask name (·.poll) (q := .poll) fun _ => rfl

/-- What is done with an exchange comes down to moves of its stock. -/
theorem perform (named : Named x s sinks numbers []) {d : Deed} (fits : d.Fits) :
    ∃ y s' more numbers', x.perform d = .ok y ∧ s.Becomes s' ∧
      Named y s' (sinks ++ more) numbers' [] := by
  cases d with
  | openChannel name =>
    obtain ⟨s', numbers', becomes, opened⟩ := named.openChannel name
    exact ⟨_, s', _, numbers', rfl, becomes, opened⟩
  | openCallback name =>
    obtain ⟨s', numbers', becomes, planted, -⟩ := named.plant name (.callback name) (by simp)
    exact ⟨_, s', _, numbers', rfl, becomes, planted⟩
  | openSilent name =>
    obtain ⟨s', numbers', becomes, planted, -⟩ := named.plant name .silent (by simp)
    exact ⟨_, s', _, numbers', rfl, becomes, planted⟩
  | derive name wrapper =>
    obtain ⟨s', numbers', becomes, derived⟩ := named.derive name wrapper
    exact ⟨_, s', [], numbers', rfl, becomes, by rwa [List.append_nil]⟩
  | split name count =>
    obtain ⟨y, parts, s', numbers', shared, becomes, all⟩ := named.split name fits
    refine ⟨y, s', [], numbers', ?_, becomes, by rwa [List.append_nil]⟩
    rw [Exchange.perform, shared]
    rfl
  | resolve name how =>
    obtain ⟨s', numbers', becomes, -, freed⟩ := named.resolve name how
    exact ⟨_, s', [], numbers', rfl, becomes, by rwa [List.append_nil]⟩
  | ask name q =>
    obtain ⟨s', becomes, looked⟩ := named.put name q
    exact ⟨_, s', [], numbers, rfl, becomes, by rwa [List.append_nil]⟩
  | dropFuture name =>
    refine ⟨_, s, [], numbers, rfl, .refl s, ?_⟩
    rw [List.append_nil]
    exact ⟨{ named.names with }, named.hears.dropFuture name⟩

theorem start : Named .empty .empty [] (fun _ => none) [] where
  names :=
    { ledger := rfl
      found := by simp [Exchange.token?, Exchange.empty]
      missing := fun _ _ => rfl
      waiting := by simp
      all := by simp [Stock.empty]
      apart := by simp
      nodup := .nil
      unnamed := by simp
      early := fun _ _ => rfl }
  hears :=
    { futures := rfl
      channels := by simp
      once := by simp
      watchers := by simp [Exchange.empty]
      single := by simp [Exchange.empty]
      heard := by simp [Stock.empty]
      calls := rfl }

end Named

/-- As long as parts have room, an exchange is a stock at all times. -/
theorem named_run {ds : List Deed} (fits : ∀ d ∈ ds, d.Fits) :
    ∃ x ms sinks numbers, Exchange.empty.run ds = .ok x ∧ Named x (.after ms) sinks numbers [] := by
  induction ds using List.reverseRecOn with
  | nil => exact ⟨.empty, [], [], _, rfl, .start⟩
  | append_singleton ds d ih =>
    obtain ⟨x, ms, sinks, numbers, done, named⟩ := ih fun d mem => fits d (by simp [mem])
    obtain ⟨y, _, more, numbers', performed, ⟨ns, rfl⟩, next⟩ := named.perform (fits d (by simp))
    refine ⟨y, ms ++ ns, sinks ++ more, numbers', ?_, ?_⟩
    · rw [Exchange.run] at done ⊢
      rw [List.foldlM_append, done]
      show (Exchange.perform x d >>= pure) = .ok y
      rw [bind_pure, performed]
    · rwa [Stock.after, List.foldl_append]

/-- So whoever is told of anything is told of a tree.  A tree is open as long as a name stands for
    one of its tokens; calls come in the order in which trees come to their ends, each of them once;
    and a future answers by the end of its tree. -/
theorem told_of_run {ds : List Deed} (fits : ∀ d ∈ ds, d.Fits) :
    ∃ (x : Exchange) (ms : List Move) (sinks : List Listener) (numbers : String → Option Nat),
      Exchange.empty.run ds = .ok x ∧
      (∀ (r : Nat) (tree : Tree), (Forest.after ms).trees[r]? = some tree →
        (tree.result? = none ↔ ∃ name k, (x.token? name).isSome ∧ numbers name = some k ∧
          tree.holds k ≠ 0)) ∧
      x.calls.reverse = (Stock.after ms).heard.filterMap (call? sinks) ∧
      (∀ r, (Stock.after ms).heardBy r = ((Forest.after ms).end? r).toList) ∧
      ∀ name f, x.future? name = some f → ∃ (r n : Nat), sinks[r]? = some (.channel n) ∧ ∀ q,
        (x.put name q).2 = some (q.answer (((Forest.after ms).end? r).map (·.2))) ∨
          x.patience = 0 ∧ (x.put name q).2 = some (.polled .pending) := by
  obtain ⟨x, ms, sinks, numbers, done, named⟩ := named_run fits
  have agrees : (Stock.after ms).Agrees (.after ms) := .after ms
  refine ⟨x, ms, sinks, numbers, done, fun r tree found => ?_, named.hears.calls, agrees.heard,
    fun name f future => ?_⟩
  · rw [Tree.result?_eq_none_iff]
    constructor
    · rintro ⟨k, holding⟩
      have held := agrees.stand.held_iff.mpr ⟨tree, List.mem_of_getElem? found, holding⟩
      obtain ⟨name, number⟩ := (named.names.all k held).resolve_right List.not_mem_nil
      obtain ⟨t, token, -⟩ := named.names.exists_token number
      exact ⟨name, k, by rw [token]; rfl, number, holding⟩
    · rintro ⟨-, k, -, -, holding⟩
      exact ⟨k, holding⟩
  · obtain ⟨w, -, -, r, sink, present⟩ := named.hears.exists_future future
    refine ⟨r, w.number, sink, fun q => ?_⟩
    rw [← (q.ask_of_shows (agrees.shows r f present)).2]
    exact Exchange.answer_put future q

/-- A token that loses its name is dropped, and here it is the last part. -/
example :
    (Exchange.empty.run [.openCallback "a", .split "a" 2, .resolve "a.0" (.resolve (.ok ())),
      .openSilent "a.1"]).toOption.map (·.calls) = some [("a", .error .cancelled)] := by
  decide

end WebSocketEngine.Completion
