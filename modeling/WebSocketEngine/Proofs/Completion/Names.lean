import WebSocketEngine.Completion.Exchange
import WebSocketEngine.Proofs.Completion.Stock

/-!
An exchange is a stock whose tokens have names.

    exchange    "a" ▸ derived (root (callback "f"))      "b" ▸ part 3 (root (channel 1))
    stock        2  ▸ derived (root 0)                    5  ▸ part 3 (root 4)
    listeners   [callback "f", .. , channel 1]

The ledger is the same.  A name stands for the number of a token, and at its root there is a number
where the exchange has a listener (`Leads`).  While names change hands there are tokens that have
none; they are `loose`.  Nothing that the stock holds is lost to the exchange (`Names`), and a
listener hears what comes to its number (`Hears`).
-/

namespace WebSocketEngine.Completion

/-! ### Tokens and where they lead -/

/-- The same token, with a listener at its root and with the number of that listener. -/
inductive Token.Leads (sinks : List Listener) : Token Listener → Token Nat → Prop
  | root {l : Listener} {r : Nat} : sinks[r]? = some l → Leads sinks (.root l) (.root r)
  | derived {t : Token Listener} {u : Token Nat} :
    Leads sinks t u → Leads sinks (.derived t) (.derived u)
  | part {t : Token Listener} {u : Token Nat} (n : Nat) :
    Leads sinks t u → Leads sinks (.part n t) (.part n u)

/-- The same outcome arrives, at a listener and under its number. -/
def Arrives (sinks : List Listener) (d : Delivery Listener) (e : Delivery Nat) : Prop :=
  sinks[e.1]? = some d.1 ∧ d.2 = e.2

variable {sinks : List Listener} {t : Token Listener} {u : Token Nat}

theorem Token.Leads.append (leads : t.Leads sinks u) (more : List Listener) :
    t.Leads (sinks ++ more) u := by
  induction leads with
  | root found =>
    exact .root ((List.getElem?_append_left (List.getElem?_eq_some_iff.mp found).1).trans found)
  | derived _ ih => exact .derived ih
  | part n _ ih => exact .part n ih

/-- To let go of the one token is to let go of the other. -/
theorem Token.Leads.resolve (leads : t.Leads sinks u) (l : Ledger) (o : Outcome) :
    (l.resolve t o).1 = (l.resolve u o).1 ∧
      Option.Rel (Arrives sinks) (l.resolve t o).2 (l.resolve u o).2 := by
  induction leads generalizing l o with
  | root found => exact ⟨rfl, .some ⟨found, rfl⟩⟩
  | derived _ ih => exact ih l o
  | part n _ ih =>
    rw [Ledger.resolve, Ledger.resolve]
    rcases l.record n o with ⟨l, _ | whole⟩
    · exact ⟨rfl, .none⟩
    · exact ih l whole

theorem Token.Leads.split (leads : t.Leads sinks u) (l : Ledger) (count : Nat) :
    (l.split t count).1 = (l.split u count).1 ∧
      List.Forall₂ (Token.Leads sinks) (l.split t count).2.1 (l.split u count).2.1 ∧
      Option.Rel (Arrives sinks) (l.split t count).2.2 (l.split u count).2.2 := by
  unfold Ledger.split
  by_cases nobody : count = 0
  · rw [if_pos nobody, if_pos nobody]
    obtain ⟨ledger, arrives⟩ := leads.resolve l (.ok ())
    exact ⟨ledger, .nil, arrives⟩
  · rw [if_neg nobody, if_neg nobody]
    refine ⟨rfl, ?_, .none⟩
    clear nobody
    induction count with
    | zero => exact .nil
    | succ count ih => exact .cons (.part _ leads) ih

/-! ### Names of tokens -/

/-- The stock holds a token under its number. -/
def Stock.Keeps (s : Stock) (sinks : List Listener) (t : Token Listener) (k : Nat) : Prop :=
  ∃ u, s.held k = some u ∧ t.Leads sinks u

/-- The tokens that an exchange holds, named or loose, are those of a stock. -/
structure Names (x : Exchange) (s : Stock) (sinks : List Listener) (numbers : String → Option Nat)
    (loose : List (Token Listener × Nat)) : Prop where
  ledger : x.ledger = s.ledger
  found : ∀ name t, x.token? name = some t → ∃ k, numbers name = some k ∧ s.Keeps sinks t k
  missing : ∀ name, x.token? name = none → numbers name = none
  waiting : ∀ p ∈ loose, s.Keeps sinks p.1 p.2
  all : ∀ k, (s.held k).isSome → (∃ name, numbers name = some k) ∨ k ∈ loose.map (·.2)
  apart : ∀ a b k, numbers a = some k → numbers b = some k → a = b
  nodup : (loose.map (·.2)).Nodup
  unnamed : ∀ p ∈ loose, ∀ name, numbers name ≠ some p.2
  early : ∀ k, s.tokens ≤ k → s.held k = none

/-- The numbering of the tokens when one name has changed. -/
def renamed (numbers : String → Option Nat) (name : String) (k : Option Nat) :
    String → Option Nat :=
  fun a => if a = name then k else numbers a

section

variable {numbers : String → Option Nat} {name a : String} {k j : Nat}

theorem renamed_of_ne {n : Option Nat} (other : a ≠ name) : renamed numbers name n a = numbers a :=
  if_neg other

theorem renamed_none_iff :
    renamed numbers name none a = some j ↔ a ≠ name ∧ numbers a = some j := by
  by_cases here : a = name <;> simp [renamed, here]

theorem renamed_some_iff : renamed numbers name (some k) a = some j ↔
    a = name ∧ k = j ∨ a ≠ name ∧ numbers a = some j := by
  by_cases here : a = name <;> simp [renamed, here]

end

theorem Exchange.token?_release (x : Exchange) (name a : String) :
    (x.release name).token? a = if a = name then none else x.token? a := by
  unfold token? release
  split
  · next here =>
    refine List.lookup_eq_none_iff.mpr fun e mem => ?_
    have other : e.1 ≠ name := by simpa using (List.mem_filter.mp mem).2
    exact bne_iff_ne.mpr fun same => other (same.symm.trans here)
  · next other =>
    dsimp only
    induction x.tokens with
    | nil => rfl
    | cons e es ih =>
      rcases e with ⟨b, t⟩
      by_cases here : b = name
      · rw [List.filter_cons_of_neg (by simp [here]), ih, List.lookup_cons,
          beq_false_of_ne fun same => other (same.trans here)]
      · rw [List.filter_cons_of_pos (by simp [here]), List.lookup_cons, List.lookup_cons, ih]

theorem Exchange.token?_cons (x : Exchange) (name a : String) (t : Token Listener) :
    Exchange.token? { x with tokens := (name, t) :: x.tokens } a =
      if a = name then some t else x.token? a := by
  unfold token?
  rw [List.lookup_cons]
  by_cases here : a = name <;> simp [here, beq_false_of_ne]

namespace Names

variable {x : Exchange} {s : Stock} {numbers : String → Option Nat}
  {loose : List (Token Listener × Nat)} {name : String} {k : Nat}

/-- More listeners. -/
theorem append (names : Names x s sinks numbers loose) (more : List Listener) :
    Names x s (sinks ++ more) numbers loose :=
  { names with
    found := fun name t token =>
      (names.found name t token).imp fun _ ⟨number, u, held, leads⟩ =>
        ⟨number, u, held, leads.append more⟩
    waiting := fun p mem => (names.waiting p mem).imp fun _ ⟨held, leads⟩ =>
      ⟨held, leads.append more⟩ }

/-- A token is let go of, together with its name. -/
theorem letGo (names : Names x s sinks numbers loose) (number : numbers name = some k) :
    Names (x.release name) (s.letGo k) sinks (renamed numbers name none) loose := by
  have kept {j : Nat} (other : j ≠ k) : (s.letGo k).held j = s.held j := if_neg other
  have other {a : String} {j : Nat} (numbered : numbers a = some j) : a = name ↔ j = k := by
    constructor
    · rintro rfl
      exact Option.some.inj (numbered.symm.trans number)
    · rintro rfl
      exact names.apart a name j numbered number
  refine
    { ledger := names.ledger
      found := fun a t token => ?_
      missing := fun a token => ?_
      waiting := fun p mem => ?_
      all := fun j held => ?_
      apart := fun a b j first second =>
        names.apart a b j (renamed_none_iff.mp first).2 (renamed_none_iff.mp second).2
      nodup := names.nodup
      unnamed := fun p mem a numbered => names.unnamed p mem a (renamed_none_iff.mp numbered).2
      early := fun j late => ?_ }
  · rw [x.token?_release] at token
    split at token
    · cases token
    · next elsewhere =>
      obtain ⟨j, numbered, u, held, leads⟩ := names.found a t token
      refine ⟨j, renamed_none_iff.mpr ⟨elsewhere, numbered⟩, u, ?_, leads⟩
      exact (kept (mt (other numbered).mpr elsewhere)).trans held
  · rw [x.token?_release] at token
    split at token
    · next here => exact if_pos here
    · next elsewhere => exact (renamed_of_ne elsewhere).trans (names.missing a token)
  · obtain ⟨u, held, leads⟩ := names.waiting p mem
    refine ⟨u, (kept fun same => ?_).trans held, leads⟩
    exact names.unnamed p mem name (same ▸ number)
  · by_cases gone : j = k
    · rw [show (s.letGo k).held j = none from if_pos gone] at held
      cases held
    · rw [kept gone] at held
      refine (names.all j held).imp_left fun ⟨a, numbered⟩ => ⟨a, ?_⟩
      exact renamed_none_iff.mpr ⟨mt (other numbered).mp gone, numbered⟩
  · show s.held.without k j = none
    rw [Held.without, names.early j late, ite_self]

/-- A loose token is given a name that stands for no other. -/
theorem give (names : Names x s sinks numbers ((t, k) :: loose)) (free : numbers name = none) :
    Names { x with tokens := (name, t) :: x.tokens } s sinks (renamed numbers name (some k))
      loose := by
  have nodup := List.nodup_cons.mp names.nodup
  have unnamed := names.unnamed (t, k) (by simp)
  refine
    { ledger := names.ledger
      found := fun a v token => ?_
      missing := fun a token => ?_
      waiting := fun p mem => names.waiting p (by simp [mem])
      all := fun j held => ?_
      apart := fun a b j first second => ?_
      nodup := nodup.2
      unnamed := fun p mem a numbered => ?_
      early := names.early }
  · rw [x.token?_cons] at token
    split at token
    · next here =>
      cases token
      exact ⟨k, renamed_some_iff.mpr (.inl ⟨here, rfl⟩), names.waiting (t, k) (by simp)⟩
    · next elsewhere =>
      rw [renamed_of_ne elsewhere]
      exact names.found a v token
  · rw [x.token?_cons] at token
    split at token
    · cases token
    · next elsewhere => exact (renamed_of_ne elsewhere).trans (names.missing a token)
  · rcases names.all j held with ⟨a, numbered⟩ | among
    · refine .inl ⟨a, renamed_some_iff.mpr (.inr ⟨?_, numbered⟩)⟩
      rintro rfl
      rw [free] at numbered
      cases numbered
    · rcases List.mem_cons.mp among with rfl | among
      · exact .inl ⟨name, renamed_some_iff.mpr (.inl ⟨rfl, rfl⟩)⟩
      · exact .inr among
  · rcases renamed_some_iff.mp first with ⟨here, same⟩ | ⟨-, old⟩ <;>
      rcases renamed_some_iff.mp second with ⟨there, same'⟩ | ⟨-, old'⟩
    · exact here.trans there.symm
    · exact (unnamed b (same ▸ old')).elim
    · exact (unnamed a (same' ▸ old)).elim
    · exact names.apart a b j old old'
  · rcases renamed_some_iff.mp numbered with ⟨-, same⟩ | ⟨-, numbered⟩
    · exact nodup.1 (List.mem_map.mpr ⟨p, mem, same.symm⟩)
    · exact names.unnamed p (by simp [mem]) a numbered

/-- A name that stands for a number stands for a token. -/
theorem exists_token (names : Names x s sinks numbers loose) (number : numbers name = some k) :
    ∃ t, x.token? name = some t ∧ s.Keeps sinks t k := by
  cases token : x.token? name with
  | none =>
    rw [names.missing name token] at number
    cases number
  | some t =>
    obtain ⟨j, numbered, keeps⟩ := names.found name t token
    obtain rfl := Option.some.inj (numbered.symm.trans number)
    exact ⟨t, rfl, keeps⟩

/-- New tokens, which have no names yet. -/
theorem hold (names : Names x s sinks numbers []) {ts : List (Token Listener)}
    {us : List (Token Nat)} (lead : List.Forall₂ (Token.Leads sinks) ts us) :
    Names x (s.hold us) sinks numbers (ts.zipIdx s.tokens) := by
  have old {v : Token Listener} {j : Nat} (keeps : s.Keeps sinks v j) :
      j < s.tokens ∧ (s.hold us).Keeps sinks v j := by
    obtain ⟨u, held, leads⟩ := keeps
    have before : j < s.tokens := by
      refine Nat.lt_of_not_le fun late => ?_
      rw [names.early j late] at held
      cases held
    exact ⟨before, u, (if_pos before).trans held, leads⟩
  have new {j : Nat} (late : s.tokens ≤ j) : (s.hold us).held j = us[j - s.tokens]? :=
    if_neg (Nat.not_lt.mpr late)
  refine
    { ledger := names.ledger
      found := fun a v token =>
        (names.found a v token).imp fun _ ⟨number, keeps⟩ => ⟨number, (old keeps).2⟩
      missing := names.missing
      waiting := fun p mem => ?_
      all := fun j held => ?_
      apart := names.apart
      nodup := by rw [List.zipIdx_map_snd]; exact List.nodup_range' _
      unnamed := fun p mem a number => ?_
      early := fun j late => ?_ }
  · obtain ⟨late, token⟩ := List.mem_zipIdx_iff_le_and_getElem?_sub.mp mem
    obtain ⟨there, same⟩ := List.getElem?_eq_some_iff.mp token
    have there' := lead.length_eq ▸ there
    refine ⟨us[p.2 - s.tokens], (new late).trans (List.getElem?_eq_getElem there'), ?_⟩
    rw [← same]
    exact lead.get there there'
  · by_cases before : j < s.tokens
    · have held' : (s.held j).isSome := by rwa [← (if_pos before : (s.hold us).held j = s.held j)]
      exact .inl ((names.all j held').resolve_right List.not_mem_nil)
    · rw [new (Nat.le_of_not_lt before)] at held
      obtain ⟨u, token⟩ := Option.isSome_iff_exists.mp held
      have there := (List.getElem?_eq_some_iff.mp token).1
      rw [List.zipIdx_map_snd, List.mem_range'_1, lead.length_eq]
      exact .inr (by omega)
  · obtain ⟨late, -⟩ := List.mem_zipIdx_iff_le_and_getElem?_sub.mp mem
    obtain ⟨v, -, keeps⟩ := names.exists_token number
    exact Nat.not_lt.mpr late (old keeps).1
  · have late : s.tokens + us.length ≤ j := late
    rw [new (by omega)]
    exact List.getElem?_eq_none (by omega)

/-- Only the ledger and the tokens matter. -/
theorem frame {y : Exchange} {r : Stock} (names : Names x s sinks numbers loose)
    (ledger : y.ledger = r.ledger) (tokens : y.tokens = x.tokens) (held : r.held = s.held)
    (count : r.tokens = s.tokens) : Names y r sinks numbers loose := by
  have same (name : String) : y.token? name = x.token? name := congrArg (·.lookup name) tokens
  have keeps {t : Token Listener} {k : Nat} : s.Keeps sinks t k → r.Keeps sinks t k := by
    rw [Stock.Keeps, Stock.Keeps, held]
    exact id
  exact
    { names with
      ledger
      found := fun name t token =>
        (names.found name t ((same name).symm.trans token)).imp fun _ ⟨number, kept⟩ =>
          ⟨number, keeps kept⟩
      missing := fun name token => names.missing name ((same name).symm.trans token)
      waiting := fun p mem => keeps (names.waiting p mem)
      all := by rw [held]; exact names.all
      early := by rw [held, count]; exact names.early }

theorem deliver (names : Names x s sinks numbers loose) (d : Option (Delivery Listener))
    (e : Option (Delivery Nat)) : Names (x.deliver d) (s.deliver e) sinks numbers loose := by
  rcases d with _ | ⟨_ | _ | _, o⟩ <;> rcases e with _ | ⟨r, o'⟩ <;>
    exact names.frame names.ledger rfl rfl rfl

end Names

/-! ### Futures and callbacks -/

/-- What a callback is called with. -/
def Listener.call? (o : Outcome) : Listener → Option (String × Outcome)
  | callback name => some (name, o)
  | channel _ | silent => none

/-- The call that comes of an outcome that was heard. -/
def call? (sinks : List Listener) (h : Nat × End) : Option (String × Outcome) :=
  sinks[h.1]?.bind (·.call? h.2.2)

/-- Futures and callbacks hear what the channels of a stock hear. -/
structure Hears (x : Exchange) (s : Stock) (sinks : List Listener) : Prop where
  futures : s.futures.length = sinks.length
  channels : ∀ n, .channel n ∈ sinks → n < x.channels
  once : ∀ (r r' n : Nat), sinks[r]? = some (.channel n) → sinks[r']? = some (.channel n) → r = r'
  watchers : ∀ w ∈ x.watchers,
    ∃ r : Nat, sinks[r]? = some (.channel w.number) ∧ s.futures[r]? = some w.future
  single : ∀ v ∈ x.watchers, ∀ w ∈ x.watchers, v.name = w.name ↔ v.number = w.number
  heard : ∀ h ∈ s.heard, h.1 < sinks.length
  calls : x.calls.reverse = s.heard.filterMap (call? sinks)

/-- An outcome makes a call or a delivery, or neither. -/
theorem Exchange.deliver_some (x : Exchange) (l : Listener) (o : Outcome) :
    x.deliver (some (l, o)) =
      { x with
        calls := (l.call? o).toList ++ x.calls
        watchers := x.watchers.map fun w =>
          if l = .channel w.number then { w with future := w.future.deliver o } else w } := by
  cases l with
  | channel n => simp [deliver, Listener.call?, eq_comm]
  | callback name | silent => simp [deliver, Listener.call?]

namespace Hears

variable {x : Exchange} {s : Stock}

/-- An outcome arrives on both sides. -/
theorem deliver (hears : Hears x s sinks) {d : Option (Delivery Listener)}
    {e : Option (Delivery Nat)} (arrives : Option.Rel (Arrives sinks) d e) :
    Hears (x.deliver d) (s.deliver e) sinks := by
  cases arrives with
  | none => exact hears
  | @some d e arrives =>
    obtain ⟨l, o⟩ := d
    obtain ⟨r, o'⟩ := e
    obtain ⟨found, rfl⟩ : sinks[r]? = some l ∧ o = o' := arrives
    have before {w : Watcher} (mem : w ∈ (x.deliver (some (l, o))).watchers) :
        ∃ v ∈ x.watchers, w.name = v.name ∧ w.number = v.number ∧
          w.future = if l = .channel v.number then v.future.deliver o else v.future := by
      rw [x.deliver_some] at mem
      obtain ⟨v, old, rfl⟩ := List.mem_map.mp mem
      refine ⟨v, old, ?_⟩
      split <;> exact ⟨rfl, rfl, rfl⟩
    refine
      { futures := (List.length_modify _ _ _).trans hears.futures
        channels := by rw [x.deliver_some]; exact hears.channels
        once := hears.once
        watchers := fun w mem => ?_
        single := fun v memv w memw => ?_
        heard := fun h mem => ?_
        calls := ?_ }
    · obtain ⟨v, old, -, number, future⟩ := before mem
      obtain ⟨r', sink, present⟩ := hears.watchers v old
      refine ⟨r', by rw [number, sink], ?_⟩
      show (s.futures.modify r (·.deliver o))[r']? = some w.future
      rw [List.getElem?_modify, present, future]
      by_cases here : r = r'
      · subst here
        simp [Option.some.inj (found.symm.trans sink)]
      · have other : l ≠ .channel v.number := by
          rintro rfl
          exact here (hears.once r r' _ found sink)
        simp [here, other]
    · obtain ⟨v', oldv, namev, numberv, -⟩ := before memv
      obtain ⟨w', oldw, namew, numberw, -⟩ := before memw
      rw [namev, namew, numberv, numberw]
      exact hears.single v' oldv w' oldw
    · rcases List.mem_append.mp mem with old | new
      · exact hears.heard h old
      · rw [List.mem_singleton.mp new]
        exact (List.getElem?_eq_some_iff.mp found).1
    · have told : call? sinks (r, s.time, o) = l.call? o := by
        rw [call?, found]
        rfl
      show _ = (s.heard ++ [(r, s.time, o)]).filterMap (call? sinks)
      rw [x.deliver_some, List.filterMap_append, ← hears.calls, List.reverse_append]
      refine congrArg (x.calls.reverse ++ ·) ?_
      rw [List.filterMap_cons, told]
      cases l.call? o <;> rfl

/-- One more listener; a channel gets a number of its own. -/
theorem plant (hears : Hears x s sinks) (l : Listener)
    (fresh : ∀ n, l = .channel n → .channel n ∉ sinks ∧ n < x.channels) (us : List (Token Nat)) :
    Hears x { s.hold us with futures := s.futures ++ [.fresh] } (sinks ++ [l]) where
  futures := by
    rw [List.length_append, List.length_append]
    exact congrArg (· + 1) hears.futures
  channels n mem := by
    rcases List.mem_append.mp mem with old | new
    · exact hears.channels n old
    · exact (fresh n (List.mem_singleton.mp new).symm).2
  once r r' n first second := by
    rcases getElem?_concat_cases first with old | ⟨rfl, new⟩ <;>
      rcases getElem?_concat_cases second with old' | ⟨rfl, new'⟩
    · exact hears.once r r' n old old'
    · exact ((fresh n new'.symm).1 (List.mem_of_getElem? old)).elim
    · exact ((fresh n new.symm).1 (List.mem_of_getElem? old')).elim
    · rfl
  watchers w mem := by
    obtain ⟨r, sink, future⟩ := hears.watchers w mem
    refine ⟨r, ?_, ?_⟩
    · exact (List.getElem?_append_left (List.getElem?_eq_some_iff.mp sink).1).trans sink
    · exact (List.getElem?_append_left (List.getElem?_eq_some_iff.mp future).1).trans future
  single := hears.single
  heard h mem := by
    rw [List.length_append]
    exact Nat.lt_add_right 1 (hears.heard h mem)
  calls := by
    rw [hears.calls]
    refine List.filterMap_congr fun h mem => ?_
    rw [call?, call?, List.getElem?_append_left (hears.heard h mem)]

/-- A future is watched no more. -/
theorem dropFuture (hears : Hears x s sinks) (name : String) :
    Hears (x.dropFuture name) s sinks :=
  { hears with
    watchers := fun w mem => hears.watchers w (List.mem_filter.mp mem).1
    single := fun v memv w memw =>
      hears.single v (List.mem_filter.mp memv).1 w (List.mem_filter.mp memw).1 }

/-- A channel that nobody has watched before is watched under a name that no other future has. -/
theorem watch (hears : Hears x s sinks) (name : String) {r n : Nat}
    (sink : sinks[r]? = some (.channel n)) (future : s.futures[r]? = some .fresh)
    (new : ∀ w ∈ x.watchers, w.name ≠ name ∧ w.number ≠ n) :
    Hears { x with watchers := ⟨name, n, .fresh⟩ :: x.watchers } s sinks :=
  { hears with
    watchers := fun w mem => by
      rcases List.mem_cons.mp mem with rfl | old
      · exact ⟨r, sink, future⟩
      · exact hears.watchers w old
    single := fun v memv w memw => by
      rcases List.mem_cons.mp memv with rfl | oldv <;> rcases List.mem_cons.mp memw with rfl | oldw
      · exact iff_of_true rfl rfl
      · exact iff_of_false (new w oldw).1.symm (new w oldw).2.symm
      · exact iff_of_false (new v oldv).1 (new v oldv).2
      · exact hears.single v oldv w oldw }

/-- A future by its name. -/
theorem exists_future (hears : Hears x s sinks) {name : String} {f : Future}
    (future : x.future? name = some f) :
    ∃ w ∈ x.watchers, w.name = name ∧ ∃ r : Nat, sinks[r]? = some (.channel w.number) ∧
      s.futures[r]? = some f := by
  obtain ⟨w, found, rfl⟩ := Option.map_eq_some_iff.mp future
  have mem := List.mem_of_find?_eq_some found
  exact ⟨w, mem, by simpa using List.find?_some found, hears.watchers w mem⟩

/-- A future changes when somebody has looked at it. -/
theorem look (hears : Hears x s sinks) {w : Watcher} {r : Nat} (mem : w ∈ x.watchers)
    (sink : sinks[r]? = some (.channel w.number)) (g : Future) (answers : List Answer) :
    Hears { x with watchers := x.watchers.map fun v =>
        if v.name = w.name then { v with future := g } else v }
      { s with futures := s.futures.set r g, answers } sinks := by
  have before {v : Watcher} (mem : v ∈ x.watchers.map fun v =>
      if v.name = w.name then { v with future := g } else v) :
      ∃ u ∈ x.watchers, v.name = u.name ∧ v.number = u.number ∧
        v.future = if u.name = w.name then g else u.future := by
    obtain ⟨u, old, rfl⟩ := List.mem_map.mp mem
    refine ⟨u, old, ?_⟩
    split <;> exact ⟨rfl, rfl, rfl⟩
  refine
    { hears with
      futures := List.length_set.trans hears.futures
      watchers := fun v mem' => ?_
      single := fun v memv v' memv' => ?_ }
  · obtain ⟨u, old, -, number, future⟩ := before mem'
    obtain ⟨r', sink', present⟩ := hears.watchers u old
    refine ⟨r', by rw [number, sink'], ?_⟩
    have there := (List.getElem?_eq_some_iff.mp present).1
    rw [future, List.getElem?_set, present]
    -- One channel, one number, one name.
    have same : r = r' ↔ u.name = w.name := by
      rw [hears.single u old w mem]
      constructor
      · rintro rfl
        exact (Listener.channel.inj (Option.some.inj (sink.symm.trans sink'))).symm
      · intro number
        exact hears.once r r' w.number sink (number ▸ sink')
    by_cases here : r = r'
    · simp [here, same.mp here, there]
    · simp [here, mt same.mpr here]
  · obtain ⟨u, oldu, nameu, numberu, -⟩ := before memv
    obtain ⟨u', oldu', nameu', numberu', -⟩ := before memv'
    rw [nameu, nameu', numberu, numberu']
    exact hears.single u oldu u' oldu'

end Hears

end WebSocketEngine.Completion
