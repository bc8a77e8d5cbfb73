import WebSocketEngine.Proofs.Connection.Apart
import WebSocketEngine.Proofs.Connection.Counting
import Mathlib.Algebra.BigOperators.Pi
import Mathlib.Data.Fintype.BigOperators

/-!
Many connections under one roof.

    member i ──▶ house ──▶ member j ──▶ house ──▶ member i ──▶ ...

Event by event, in any order, one member has the house and leaves it to the next.  What the house
counts is at any time the sum of what the members contribute (`Balanced`), and so it is read off
their phases and their records (`keeps_account`).  In an event no other member is touched, and each
does what it would do if there were no others (`kin_events`).
-/

namespace WebSocketEngine

namespace Connection

variable {σ : Type}

/-! ### What is reported of a connection -/

/-- The driver has entered and not left. -/
def inside (c : Connection σ) : Bool :=
  match c.phase with
  | .opening | .reading _ | .serving _ => true
  | .idle | .starting | .finished _ => false

/-- The report of its crash, which a driver makes that runs on its own. -/
def crashReports (c : Connection σ) : List String :=
  match c.phase with
  | .finished (.crashed _) => if c.detached then ["panic"] else []
  | .idle | .starting | .opening | .reading _ | .serving _ | .finished (.closed _)
  | .finished (.failed _) => []

/-- The kinds of all that has gone wrong. -/
def reports (c : Connection σ) : List String := c.host.failings.map Failure.label ++ c.crashReports

/-- What has gone wrong, by phase. -/
def Reported (c : Connection σ) : Prop :=
  match c.phase with
  | .finished (.failed e) => c.reports = [e.label]
  | .finished (.crashed _) => c.reports.count "panic" = if c.detached then 1 else 0
  | .idle | .starting | .opening | .reading _ | .serving _ | .finished (.closed _) => c.reports = []

/-- What a connection contributes, item by item. -/
theorem part_eq (c : Connection σ) (item : Item) :
    c.part item =
      match item with
      | .running => if c.inside then 1 else 0
      | .inbound => (c.host.events.filterMap Call.frame?).length
      | .outbound => c.host.sent.length
      | .failed label => c.reports.count label := by
  have failed (label : String) :
      c.host.part (.failed label) = (c.host.failings.map Failure.label).count label := by
    simp [Host.part, due, Host.failings]
  cases item with
  | failed label =>
    show c.phase.part c.detached (.failed label) + c.host.part (.failed label) =
      c.reports.count label
    rw [failed, reports, List.count_append, add_comm, crashReports]
    congr 1
    cases c.phase with
    | finished ending =>
      cases ending with
      | crashed p =>
        by_cases same : label = "panic"
        · cases c.detached <;> simp [Phase.part, same]
        · cases c.detached <;> simp [Phase.part, same, Ne.symm same]
      | closed _ | failed _ => rfl
    | idle | starting | opening | reading _ | serving _ => rfl
  | running | inbound | outbound =>
    rw [part, inside]
    cases c.phase with
    | finished ending =>
      cases ending with
      | crashed p => cases c.detached <;> simp [Phase.part, Host.part, due]
      | closed _ | failed _ => simp [Phase.part, Host.part, due]
    | idle | starting | opening | reading _ | serving _ => simp [Phase.part, Host.part, due]

theorem label_ne_panic (e : Failure) : e.label ≠ "panic" := by cases e <;> simp [Failure.label]

theorem reported_of_told {c : Connection σ} (told : c.phase.Told c.host.failings) : c.Reported := by
  have calm : (c.host.failings.map Failure.label).count "panic" = 0 := by
    refine List.count_eq_zero.mpr fun mem => ?_
    obtain ⟨e, -, same⟩ := List.mem_map.mp mem
    exact label_ne_panic e same
  unfold Reported reports crashReports
  cases phase : c.phase with
  | finished ending =>
    rw [phase] at told
    cases ending with
    | crashed p =>
      dsimp only
      rw [List.count_append, calm, Nat.zero_add]
      cases c.detached <;> rfl
    | closed _ | failed _ =>
      dsimp only
      rw [show c.host.failings = _ from told]
      rfl
  | idle | starting | opening | reading _ | serving _ =>
    rw [phase] at told
    dsimp only
    rw [show c.host.failings = _ from told]
    rfl

end Connection

/-! ### A fleet -/

/-- What a connection begins with. -/
structure Setup (σ : Type) where
  supervised : Bool
  memory : σ
  handler : Handler
  id : ConnectionId
  config : Config
  interval : Duration

/-- The connection that nobody has started, before anything was counted. -/
def Setup.connection {σ : Type} (s : Setup σ) : Connection σ :=
  .establish s.supervised s.memory s.handler s.id s.config s.interval .empty

variable {ι : Type} {σ : ι → Type}

/-- Connections, and the house that they share. -/
structure Fleet (σ : ι → Type) where
  house : House
  member : ∀ i, Connection (σ i)

/-- What happens to a fleet. -/
inductive Event (σ : ι → Type)
  | beat (i : ι) (b : Connection.Beat)
  /-- The application of a member comes to know something else. -/
  | remember (i : ι) (memory : σ i)

namespace Event

/-- The one to whom it happens. -/
def member : Event σ → ι
  | beat i _ | remember i _ => i

def atOnce : Event σ → Bool
  | beat _ b => b.atOnce
  | remember _ _ => true

end Event

namespace Fleet

def launch (setups : ∀ i, Setup (σ i)) : Fleet σ := ⟨.empty, fun i => (setups i).connection⟩

/-! ### What the house counts -/

section

variable [Fintype ι] {f : Fleet σ}

/-- The house counts what the members contribute. -/
structure Balanced (f : Fleet σ) : Prop where
  gauge : f.house.metrics.connections.getD 0 = f.house.running
  total : f.house.total = ∑ i, (f.member i).part
  queued : ∀ i, (f.member i).host.Queued
  told : ∀ i, (f.member i).phase.Told (f.member i).host.failings

/-- The counts of the house are those of the phases and the records of the members. -/
structure Accounted (f : Fleet σ) : Prop where
  running : f.house.running = ({i | (f.member i).inside} : Finset ι).card
  gauge : f.house.metrics.connections.getD 0 = f.house.running
  inbound : f.house.metrics.inbound = ∑ i, ((f.member i).host.events.filterMap Call.frame?).length
  outbound : f.house.metrics.outbound = ∑ i, (f.member i).host.sent.length
  queued : ∀ i, (f.member i).host.Queued
  failures : ∀ label,
    Tally.count label f.house.metrics.failures = ∑ i, (f.member i).reports.count label
  reported : ∀ i, (f.member i).Reported

theorem Balanced.accounted (balanced : f.Balanced) : f.Accounted := by
  have total (item : Item) : f.house.total item = ∑ i, (f.member i).part item :=
    (congrFun balanced.total item).trans (Finset.sum_apply ..)
  simp only [Connection.part_eq] at total
  exact {
    running := (total .running).trans (Finset.card_filter ..).symm
    gauge := balanced.gauge
    inbound := total .inbound
    outbound := total .outbound
    queued := balanced.queued
    failures := fun label => total (.failed label)
    reported := fun i => Connection.reported_of_told (balanced.told i) }

/-- At first there is nothing to count. -/
theorem connection_unused {σ : Type} (s : Setup σ) :
    s.connection.part = 0 ∧ s.connection.host.Queued ∧
      s.connection.phase.Told s.connection.host.failings := by
  unfold Setup.connection Connection.establish
  cases s.supervised with
  | true | false =>
    refine ⟨funext fun item => ?_, fun queue waits => ?_, rfl⟩
    · cases item <;> rfl
    · cases (waits : some [] = some queue)
      rfl

theorem balanced_launch (setups : ∀ i, Setup (σ i)) : (launch setups).Balanced where
  gauge := rfl
  total := by
    refine Eq.trans ?_ (Finset.sum_eq_zero fun i _ => (connection_unused (setups i)).1).symm
    funext item
    cases item <;> rfl
  queued i := (connection_unused (setups i)).2.1
  told i := (connection_unused (setups i)).2.2

end

/-! ### Events -/

/-- The member, while it has the house. -/
def lend (f : Fleet σ) (i : ι) : Connection (σ i) :=
  { f.member i with host := { (f.member i).host with house := f.house } }

variable [DecidableEq ι]

/-- The member has changed, and leaves the house to the others. -/
def put (f : Fleet σ) (i : ι) (c : Connection (σ i)) : Fleet σ :=
  ⟨c.host.house, Function.update f.member i c⟩

def event (app : ∀ i, Application (σ i)) (f : Fleet σ) : Event σ → Fleet σ
  | .beat i b => f.put i ((f.lend i).beat (app i) b)
  | .remember i memory => f.put i { f.lend i with host := { (f.lend i).host with memory } }

def events (app : ∀ i, Application (σ i)) (f : Fleet σ) (es : List (Event σ)) : Fleet σ :=
  es.foldl (event app) f

variable {app : ∀ i, Application (σ i)} {f g : Fleet σ} {i j : ι}

theorem member_put (f : Fleet σ) (i : ι) (c : Connection (σ i)) : (f.put i c).member i = c :=
  Function.update_self ..

theorem member_put_of_ne (f : Fleet σ) (c : Connection (σ i)) (other : j ≠ i) :
    (f.put i c).member j = f.member j := Function.update_of_ne other ..

/-- What holds of all members holds of them still if it holds of the one that has changed. -/
theorem forall_put {P : ∀ j, Connection (σ j) → Prop} {c : Connection (σ i)} (own : P i c)
    (others : ∀ j, P j (f.member j)) (j : ι) : P j ((f.put i c).member j) := by
  by_cases same : j = i
  · subst same
    rwa [member_put]
  · rw [member_put_of_ne f c same]
    exact others j

/-- In an event no other member is touched. -/
theorem member_event_of_ne (app : ∀ i, Application (σ i)) (f : Fleet σ) {e : Event σ}
    (other : j ≠ e.member) : (f.event app e).member j = f.member j := by
  cases e <;> exact member_put_of_ne f _ other

/-! ### What one event counts -/

section

variable [Fintype ι]

/-- What all but one contribute. -/
def rest (f : Fleet σ) (i : ι) : Item → ℕ := ∑ j ∈ Finset.univ.erase i, (f.member j).part

theorem Balanced.lend (balanced : f.Balanced) (i : ι) : (f.lend i).Counted (f.rest i) where
  even.gauge := balanced.gauge
  even.queued := balanced.queued i
  even.total := by
    have split := Finset.sum_erase_add Finset.univ (fun j => (f.member j).part) (Finset.mem_univ i)
    exact balanced.total.trans (split.symm.trans (add_assoc ..).symm)
  told := balanced.told i

theorem balanced_put (balanced : f.Balanced) {c : Connection (σ i)}
    (counted : c.Counted (f.rest i)) : (f.put i c).Balanced where
  gauge := counted.even.gauge
  total := by
    -- One summand is replaced; the base of the account is the sum of the others.
    have others : ∑ j ∈ Finset.univ.erase i, ((f.put i c).member j).part = f.rest i :=
      Finset.sum_congr rfl fun j mem =>
        congrArg Connection.part (member_put_of_ne f c (Finset.ne_of_mem_erase mem))
    rw [← Finset.sum_erase_add Finset.univ _ (Finset.mem_univ i), others, member_put]
    exact counted.even.total.trans (add_assoc ..)
  queued := forall_put (P := fun _ c => c.host.Queued) counted.even.queued balanced.queued
  told := forall_put (P := fun _ c => c.phase.Told c.host.failings) counted.told balanced.told

theorem balanced_event (balanced : f.Balanced) {e : Event σ} (atOnce : e.atOnce = true) :
    (f.event app e).Balanced := by
  cases e with
  | beat i b => exact balanced_put balanced (Connection.counted_beat (balanced.lend i) atOnce)
  | remember i memory =>
    obtain ⟨even, told⟩ := balanced.lend i
    exact balanced_put balanced ⟨⟨even.gauge, even.total, even.queued⟩, told⟩

theorem balanced_events (balanced : f.Balanced) {es : List (Event σ)}
    (atOnce : ∀ e ∈ es, e.atOnce = true) : (f.events app es).Balanced := by
  induction es generalizing f with
  | nil => exact balanced
  | cons e es ih =>
    exact ih (balanced_event balanced (atOnce e List.mem_cons_self))
      fun e' mem => atOnce e' (List.mem_cons_of_mem e mem)

end

/-! ### To each its own -/

/-- The same happens to a member of two fleets. -/
theorem kin_event {e : Event σ} (kin : (f.member e.member).Kin (g.member e.member))
    (atOnce : e.atOnce = true) :
    ((f.event app e).member e.member).Kin ((g.event app e).member e.member) := by
  have lent : (f.lend e.member).Kin (g.lend e.member) :=
    kin.onHost (Host.kin_house kin.host f.house g.house)
  cases e with
  | beat i b =>
    show ((f.put i _).member i).Kin ((g.put i _).member i)
    rw [member_put, member_put]
    exact Connection.kin_beat lent (app i) atOnce
  | remember i memory =>
    show ((f.put i _).member i).Kin ((g.put i _).member i)
    rw [member_put, member_put]
    exact lent.onHost (lent.host.set ({ · with memory }) (fun _ _ _ => rfl) rfl)

/-- A member does what it would do if nothing happened to the others. -/
theorem kin_events (kin : (f.member j).Kin (g.member j)) {es : List (Event σ)}
    (atOnce : ∀ e ∈ es, e.atOnce = true) :
    ((f.events app (es.filter (·.member = j))).member j).Kin ((g.events app es).member j) := by
  induction es generalizing f g with
  | nil => exact kin
  | cons e es ih =>
    have later : ∀ e ∈ es, e.atOnce = true := fun e' mem => atOnce e' (List.mem_cons_of_mem e mem)
    by_cases own : e.member = j
    · subst own
      rw [List.filter_cons_of_pos (by simp)]
      exact ih (kin_event kin (atOnce e List.mem_cons_self)) later
    · -- Alone, nothing happens; in the other fleet, something to somebody else.
      rw [List.filter_cons_of_neg (by simpa using own)]
      refine ih ?_ later
      rwa [member_event_of_ne app g (Ne.symm own)]

/-! ### The account -/

/-- Whatever happens to the connections and in whatever order, the house counts what they have
    entered, been handed, sent and failed at, each for itself: an event leaves all members alone but
    one, and each does what it would do if nothing happened to the others. -/
theorem keeps_account [Fintype ι] (app : ∀ i, Application (σ i)) (setups : ∀ i, Setup (σ i))
    {es : List (Event σ)} (atOnce : ∀ e ∈ es, e.atOnce = true) :
    let f := (launch setups).events app es
    f.Accounted ∧
      (∀ e i, i ≠ e.member → (f.event app e).member i = f.member i) ∧
      ∀ i, (((launch setups).events app (es.filter (·.member = i))).member i).Kin (f.member i) := by
  intro f
  have balanced : f.Balanced := balanced_events (balanced_launch setups) atOnce
  exact ⟨balanced.accounted, fun e i other => member_event_of_ne app f other,
    fun i => kin_events (Connection.kin_refl _) atOnce⟩

/-- Two connections have a frame each.  Over the one the application crashes, and its driver runs on
    its own; the other is still at its frame, and has sent another. -/
theorem keeps_account_of_crash :
    let app : Bool → Application Unit := fun breaks =>
      ⟨.none, fun s e => (s, ⟨[], if breaks ∧ e ≠ .opened then .panic (.text "out of order") else
        .succeed⟩), fun _ => false⟩
    let setups : Bool → Setup Unit := fun _ => ⟨false, (), .direct, ⟨1⟩, .standard, .zero⟩
    let es : List (Event fun _ : Bool => Unit) :=
      [.beat true (.act (.start true)), .beat false (.act (.start false)), .beat false .step,
        .beat true .step, .beat true .step, .beat true (.act (.arrive [.ping []])),
        .beat false .step, .beat false (.act (.arrive [.ping []])), .beat true .step,
        .beat false .step, .beat false (.act (.send (.pong []) false))]
    let f := (launch setups).events app es
    (∀ e ∈ es, e.atOnce = true) ∧ f.house.running = 1 ∧
      f.house.metrics.connections.getD 0 = 1 ∧ f.house.metrics.inbound = 2 ∧
      f.house.metrics.outbound = 1 ∧ Tally.count "panic" f.house.metrics.failures = 1 ∧
      (f.member false).reports = [] := by
  intro app setups es f
  have atOnce : ∀ e ∈ es, e.atOnce = true := by decide
  have accounted : f.Accounted := (keeps_account app setups atOnce).1
  have running : f.house.running = 1 := accounted.running.trans (by decide)
  have gauge : f.house.metrics.connections.getD 0 = 1 := by rw [accounted.gauge, running]; rfl
  have inbound : f.house.metrics.inbound = 2 := accounted.inbound.trans (by decide)
  have outbound : f.house.metrics.outbound = 1 := accounted.outbound.trans (by decide)
  have crashes : Tally.count "panic" f.house.metrics.failures = 1 :=
    (accounted.failures "panic").trans (by decide)
  have untouched : (f.member false).reports = [] := by decide
  exact ⟨atOnce, running, gauge, inbound, outbound, crashes, untouched⟩

end Fleet

end WebSocketEngine
