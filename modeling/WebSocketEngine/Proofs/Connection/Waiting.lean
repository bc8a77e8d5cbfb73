import WebSocketEngine.Proofs.Connection.Schedule
import WebSocketEngine.Proofs.Host.Account
import Mathlib.Algebra.GroupWithZero.Nat
import Mathlib.Data.List.Nodup

/-!
Tasks that wait for demand.

A grant makes all of them ready; each takes a unit in its turn, or finds none and waits again.  At
a quiescent point they stand in one line:

    served ──── 0 1 2 │ 3 4 5 ──── parked          parked is empty, or demand is zero

While they have their turns, those that have found nothing are parked again before those that are
still to come, so the line keeps its order (`Queue`, `queue_step`); hence whatever is asked for from
one quiescent point to the next (`Request`), it is in order there (`served_in_turn`).
-/

namespace WebSocketEngine

variable {σ : Type}

/-- The waiter that has got its unit. -/
def Note.served? : Note → Option Nat
  | .served n => some n
  | .handed _ | .called _ | .accepted _ _ | .fetched _ _ | .settled _ _ | .took | .logged _ => none

namespace Host

/-- The waiters that have got their units, the first one first. -/
abbrev served (h : Host σ) : List Nat := h.record Note.served?

theorem enqueue_of_notMem {queue : List Task} {t : Task} (new : t ∉ queue) :
    enqueue queue t = queue ++ [t] := if_neg new

theorem foldl_enqueue_of_nodup {queue tasks : List Task} (apart : (queue ++ tasks).Nodup) :
    tasks.foldl enqueue queue = queue ++ tasks := by
  induction tasks generalizing queue with
  | nil => exact (List.append_nil queue).symm
  | cons t tasks ih =>
    have new : t ∉ queue := fun mem =>
      (List.nodup_append.mp apart).2.2 t mem t List.mem_cons_self rfl
    rw [List.append_cons] at apart ⊢
    rw [List.foldl_cons, enqueue_of_notMem new, ih apart]

end Host

namespace Connection

/-! ### Requests -/

/-- What is asked of the demand of a session at a quiescent point. -/
inductive Request
  | grant (n : UInt64)
  /-- Takes a unit, if there is one. -/
  | take
  /-- One more task begins to wait for a unit. -/
  | join

namespace Request

def command : Request → Command
  | grant n => .demand n
  | take => .takeDemand
  | join => .waitForDemand

/-- The units that a request grants. -/
def units : Request → Nat
  | grant n => n.toNat
  | take | join => 0

/-- The tasks that a request adds. -/
def tasks : Request → Nat
  | join => 1
  | grant _ | take => 0

/-- The units that some requests grant. -/
def granted (rs : List Request) : Nat := (rs.map units).sum

/-- The tasks that some requests add. -/
def joined (rs : List Request) : Nat := (rs.map tasks).sum

end Request

/-- The unit that an answer says was taken. -/
def Answer.unit : Answer → Nat
  | .flag true => 1
  | .flag false | .nothing | .count _ | .idle _ | .timeout _ | .empty | .noneHeld | .crashed _ => 0

/-- The connection at the quiescent point after some requests. -/
def afterAll (app : Application σ) : Connection σ → List Request → Connection σ
  | c, [] => c
  | c, r :: rs => afterAll app (c.run app r.command).1 rs

/-- The units that were taken by request. -/
def takes (app : Application σ) : Connection σ → List Request → Nat
  | _, [] => 0
  | c, r :: rs => (c.run app r.command).2.unit + takes app (c.run app r.command).1 rs

/-! ### The line -/

variable {app : Application σ} {given taken begun : Nat} {turns waiting : List Nat}
  {c d : Connection σ}

/-- `given` units were granted, `taken` were taken by request, and `begun` tasks have begun to wait.
    Those that have been served, that wait, and that have their `turns` to come stand in the order
    in which they began. -/
structure Queue (given taken begun : Nat) (turns waiting : List Nat) (c : Connection σ) : Prop where
  ready : c.host.ready = turns.map .waiter
  parked : c.host.parked = waiting.map .waiter
  count : c.waiters = begun
  line : c.host.served ++ waiting ++ turns = List.range begun
  needy : waiting = [] ∨ c.host.session.demand = 0
  balance : given < UInt64.size →
    c.host.session.demand.toNat + c.host.served.length + taken = given

/-- Nobody stands in the line twice. -/
theorem Queue.nodup (queue : Queue given taken begun turns waiting c) : (waiting ++ turns).Nodup := by
  have apart : (c.host.served ++ (waiting ++ turns)).Nodup := by
    rw [← List.append_assoc, queue.line]
    exact List.nodup_range
  exact (List.nodup_append.mp apart).2.1

/-- The first task takes a unit if there is one, and waits behind the others if there is none. -/
theorem queue_step (queue : Queue given taken begun turns waiting c) (stepped : c.step app = some d) :
    ∃ turns waiting, Queue given taken begun turns waiting d := by
  have ready := queue.ready
  cases turns with
  | nil =>
    unfold step at stepped
    rw [ready] at stepped
    cases stepped
  | cons n turns =>
    have line := queue.line
    have served : d = { c with
        host := serve { c.host with ready := turns.map .waiter } n } := by
      unfold step at stepped
      rw [ready] at stepped
      exact (Option.some.inj stepped).symm
    subst served
    by_cases none : c.host.session.demand = 0
    · have waits : serve { c.host with ready := turns.map .waiter } n =
          { c.host with ready := turns.map .waiter }.park (.waiter n) := by
        simp only [serve, Session.take?, none, if_true]
      have new : Task.waiter n ∉ c.host.parked := by
        rw [queue.parked, List.mem_map]
        rintro ⟨m, mem, ⟨⟩⟩
        exact (List.nodup_append.mp queue.nodup).2.2 n mem n List.mem_cons_self rfl
      refine ⟨turns, waiting ++ [n], ?_⟩
      rw [waits]
      refine ⟨rfl, ?_, queue.count, ?_, .inr none, queue.balance⟩
      · rw [List.map_append, ← queue.parked]
        exact Host.enqueue_of_notMem new
      · rw [← line, List.append_assoc, List.append_assoc, List.append_assoc]
        rfl
    · -- Where there is a unit, nobody waits who came earlier.
      obtain rfl : waiting = [] := queue.needy.resolve_right none
      let session := { c.host.session with demand := c.host.session.demand - 1 }
      have took : c.host.session.take? = some session := if_neg none
      have takes : serve { c.host with ready := turns.map .waiter } n =
          { c.host with ready := turns.map .waiter, session }.note (.served n) := by
        simp only [serve, took]
      have noted : ({ c.host with ready := turns.map .waiter, session }.note (.served n)).served =
          c.host.served ++ [n] := Host.record_note Note.served? _ (.served n)
      refine ⟨turns, [], ?_⟩
      rw [takes]
      refine ⟨rfl, queue.parked, queue.count, ?_, .inl rfl, fun bounded => ?_⟩
      · rw [noted, ← line, List.append_nil, List.append_nil, List.append_assoc]
        rfl
      · have before := queue.balance bounded
        have one := Session.demand_of_take? took
        rw [noted, List.length_append, List.length_singleton]
        show session.demand.toNat + _ + _ = _
        omega

/-- When all have had their turns, whoever is left waits. -/
theorem queue_settle (app : Application σ) (queue : Queue given taken begun turns waiting c) :
    ∃ waiting, Queue given taken begun [] waiting (c.settle app) := by
  obtain ⟨turns, waiting, settled⟩ := settle_preserves
    (I := fun c => ∃ turns waiting, Queue given taken begun turns waiting c)
    (fun _ _ ⟨_, _, queue⟩ => queue_step queue) ⟨turns, waiting, queue⟩
  have quiet := ready_of_quiet (step_settle app c)
  rw [settled.ready] at quiet
  obtain rfl := List.map_eq_nil_iff.mp quiet
  exact ⟨waiting, settled⟩

theorem queue_fetch (queue : Queue given taken begun turns waiting c) :
    Queue given taken begun turns waiting c.fetch := by
  have noted (os : List Outbound) (h : Host σ) :
      let k := os.foldl (fun h o => h.note (.fetched o.frame o.batch)) h
      k.ready = h.ready ∧ k.parked = h.parked ∧ k.session = h.session ∧ k.served = h.served := by
    induction os generalizing h with
    | nil => exact ⟨rfl, rfl, rfl, rfl⟩
    | cons o os ih =>
      obtain ⟨ready, parked, session, served⟩ := ih (h.note (.fetched o.frame o.batch))
      exact ⟨ready, parked, session,
        served.trans ((Host.record_note _ h _).trans (List.append_nil _))⟩
  unfold fetch
  split
  · exact queue
  · next os _ =>
    obtain ⟨ready, parked, session, served⟩ :=
      noted os { c.host with session := { c.host.session with outbox := some [] } }
    refine ⟨ready.trans queue.ready, parked.trans queue.parked, queue.count, ?_, ?_, ?_⟩
    · dsimp only
      rw [served]
      exact queue.line
    · dsimp only
      rw [session]
      exact queue.needy
    · dsimp only
      rw [session, served]
      exact queue.balance

/-! ### What a request does to the line -/

/-- A grant lets everybody try again, in the order of the line. -/
theorem queue_grant (queue : Queue given taken begun [] waiting c) (n : UInt64) :
    Queue (given + n.toNat) taken begun waiting [] (c.act app (.demand n)).1 where
  ready := by
    have apart : (c.host.ready ++ c.host.parked).Nodup := by
      rw [queue.ready, queue.parked, List.map_nil, List.nil_append]
      have nodup := queue.nodup
      rw [List.append_nil] at nodup
      exact nodup.map fun _ _ => Task.waiter.inj
    have woken := Host.foldl_enqueue_of_nodup apart
    rw [queue.ready, queue.parked] at woken
    show c.host.parked.foldl Host.enqueue c.host.ready = _
    rw [queue.ready, queue.parked]
    exact woken
  parked := rfl
  count := queue.count
  line := by
    show c.host.served ++ [] ++ waiting = List.range begun
    rw [List.append_nil, ← queue.line, List.append_nil]
  needy := .inl rfl
  balance bounded := by
    have before := queue.balance (by omega)
    have room : c.host.session.demand.toNat + n.toNat < UInt64.size := by omega
    have sum : (c.host.session.demand + n).toNat = c.host.session.demand.toNat + n.toNat :=
      (UInt64.toNat_add _ _).trans (Nat.mod_eq_of_lt room)
    show (c.host.session.demand + n).toNat + c.host.served.length + taken = _
    omega

/-- A unit that is taken by request is taken while nobody waits. -/
theorem queue_take (queue : Queue given taken begun [] waiting c) :
    Queue given (taken + (c.act app .takeDemand).2.unit) begun [] waiting
      (c.act app .takeDemand).1 := by
  unfold act
  dsimp only
  split
  · next session took =>
    obtain ⟨some, rfl⟩ := Session.eq_of_take? took
    refine ⟨queue.ready, queue.parked, queue.count, queue.line,
      .inl (queue.needy.resolve_right some), fun bounded => ?_⟩
    have before := queue.balance bounded
    have one := Session.demand_of_take? took
    show (c.host.session.demand - 1).toNat + c.host.served.length + (taken + 1) = given
    dsimp only at one
    omega
  · exact queue

/-- A new task comes last. -/
theorem queue_join (queue : Queue given taken begun [] waiting c) :
    Queue given taken (begun + 1) [begun] waiting (c.act app .waitForDemand).1 where
  ready := by
    show Host.enqueue c.host.ready (.waiter c.waiters) = _
    rw [queue.ready, queue.count]
    rfl
  parked := queue.parked
  count := congrArg (· + 1) queue.count
  line := by
    have line := queue.line
    rw [List.append_nil] at line
    show c.host.served ++ waiting ++ [begun] = List.range (begun + 1)
    rw [line, List.range_succ]
  needy := queue.needy
  balance := queue.balance

theorem queue_run (app : Application σ) (queue : Queue given taken begun [] waiting c)
    (r : Request) :
    ∃ waiting, Queue (given + r.units) (taken + (c.run app r.command).2.unit) (begun + r.tasks) []
      waiting (c.run app r.command).1 := by
  have acted : ∃ turns waiting, Queue (given + r.units) (taken + (c.run app r.command).2.unit)
      (begun + r.tasks) turns waiting (c.act app r.command).1 := by
    cases r with
    | grant n => exact ⟨waiting, [], queue_grant queue n⟩
    | take => exact ⟨[], waiting, queue_take queue⟩
    | join => exact ⟨[begun], waiting, queue_join queue⟩
  obtain ⟨turns, waiting, acted⟩ := acted
  obtain ⟨waiting, settled⟩ := queue_settle app acted
  exact ⟨waiting, queue_fetch settled⟩

theorem queue_afterAll (app : Application σ) (queue : Queue given taken begun [] waiting c)
    (rs : List Request) :
    ∃ waiting, Queue (given + Request.granted rs) (taken + takes app c rs)
      (begun + Request.joined rs) [] waiting (afterAll app c rs) := by
  induction rs generalizing given taken begun waiting c with
  | nil => exact ⟨waiting, queue⟩
  | cons r rs ih =>
    obtain ⟨waiting, after⟩ := queue_run app queue r
    have granted : Request.granted (r :: rs) = r.units + Request.granted rs := List.sum_cons
    have joined : Request.joined (r :: rs) = r.tasks + Request.joined rs := List.sum_cons
    rw [granted, joined, takes, ← Nat.add_assoc, ← Nat.add_assoc, ← Nat.add_assoc]
    exact ih after

theorem queue_establish (supervised : Bool) (memory : σ) (handler : Handler) (id : ConnectionId)
    (config : Config) (interval : Duration) (house : House) :
    Queue 0 0 0 [] [] (establish supervised memory handler id config interval house) := by
  unfold establish
  dsimp only
  split <;> exact ⟨rfl, rfl, rfl, rfl, .inl rfl, fun _ => rfl⟩

/-- Any number of tasks wait for demand of one session, while units are granted, fewer than 2^64 in
    all, and others are taken.  At every quiescent point what was granted is there or was taken, no
    task waits while there is demand, and the tasks that have been served and those that wait make
    up the line in which they began to wait. -/
theorem served_in_turn (app : Application σ) (supervised : Bool) (memory : σ) (handler : Handler)
    (id : ConnectionId) (config : Config) (interval : Duration) (house : House)
    (rs : List Request) (bounded : Request.granted rs < UInt64.size) :
    let c₀ := establish supervised memory handler id config interval house
    let c := afterAll app c₀ rs
    c.step app = none ∧
      Request.granted rs =
        c.host.session.demand.toNat + (c.host.served.length + takes app c₀ rs) ∧
      (0 < c.host.session.demand → c.host.parked = []) ∧
      ∃ waiting, c.host.parked = waiting.map .waiter ∧
        c.host.served ++ waiting = List.range (Request.joined rs) := by
  intro c₀ c
  obtain ⟨waiting, queue⟩ := queue_afterAll app
    (queue_establish supervised memory handler id config interval house) rs
  rw [Nat.zero_add, Nat.zero_add, Nat.zero_add] at queue
  refine ⟨?_, ?_, fun some => ?_, waiting, queue.parked, ?_⟩
  · unfold step
    rw [queue.ready]
    rfl
  · rw [← Nat.add_assoc]
    exact (queue.balance bounded).symm
  · rw [queue.parked, queue.needy.resolve_right (UInt64.ne_of_lt some).symm]
    rfl
  · rw [← queue.line, List.append_nil]

/-- Three tasks wait, two units come at once and one more later, and a fourth task comes between. -/
theorem served_in_turn_of_four :
    let app : Application Unit := ⟨.none, fun s _ => (s, ⟨[], .succeed⟩), fun _ => false⟩
    let rs : List Request := [.join, .join, .join, .grant 2, .take, .join, .grant 0, .grant 1]
    let c₀ := establish false () .direct ⟨1⟩ .standard .zero .empty
    let c := afterAll app c₀ rs
    Request.granted rs < UInt64.size ∧ c.step app = none ∧
      Request.granted rs =
        c.host.session.demand.toNat + (c.host.served.length + takes app c₀ rs) ∧
      (0 < c.host.session.demand → c.host.parked = []) ∧
      ∃ waiting, c.host.parked = waiting.map .waiter ∧
        c.host.served ++ waiting = List.range (Request.joined rs) := by
  intro app rs c₀ c
  have bounded : Request.granted rs < UInt64.size := by decide
  exact ⟨bounded, served_in_turn app false () .direct ⟨1⟩ .standard .zero .empty rs bounded⟩

end Connection

end WebSocketEngine
