import WebSocketEngine.Proofs.Connection.Tallying

/-!
Units of demand of a connection, from the grant to the task that takes them.

    granted    from outside, by the application, by an assembler that gives one back
    taken      by the driver and by waiters, as the record says, and by request

The counter is a machine word.  It holds what was granted and not taken as long as that is below
2^64, and wraps beyond: of all that was granted it then knows no more than the remainder
(`demand_is_remainder`).
-/

namespace WebSocketEngine

variable {σ : Type}

open Host (Tallies)

namespace Connection

variable {app : Application σ} {c : Connection σ} {b : Beat} {bs : List Beat}

/-! ### What is granted and taken -/

/-- The units that a beat brings, but for those that the application grants. -/
def brings (app : Application σ) (c : Connection σ) : Beat → Nat
  | .act x => x.granted + comesBackTo app c x
  | .step => comesBack app c (c.beat app .step)
  | .fetch | .clock _ _ => 0

/-- The units that are granted in a beat: by itself, by an assembler that gives one back, and by the
    application in the calls of the beat. -/
def income (app : Application σ) (c : Connection σ) (b : Beat) : Nat :=
  app.grants c.host.memory ((c.beat app b).host.calls.drop c.host.calls.length) + brings app c b

/-- The units that are taken by request in a beat. -/
def outlay (app : Application σ) (c : Connection σ) : Beat → Nat
  | .act x => asksFor app c x
  | .step | .fetch | .clock _ _ => 0

/-- The units that are granted in a run. -/
def grantedIn (app : Application σ) : Connection σ → List Beat → Nat
  | _, [] => 0
  | c, b :: bs => income app c b + grantedIn app (c.beat app b) bs

/-- The units that are taken by request in a run. -/
def requestedIn (app : Application σ) : Connection σ → List Beat → Nat
  | _, [] => 0
  | c, b :: bs => outlay app c b + requestedIn app (c.beat app b) bs

/-- The units that have been taken by the end of a run, by tasks and by request. -/
def takenIn (app : Application σ) (c : Connection σ) (bs : List Beat) : Nat :=
  (beats app c bs).host.drawn + requestedIn app c bs

/-! ### The stock -/

theorem tallies_beat (instant : b.instant = true)
    (unchanged : ∀ x, b = .act x → x.changes = []) :
    Tallies app (brings app c b) (outlay app c b) c.host (c.beat app b).host := by
  cases b with
  | act x => exact tallies_act app c instant (unchanged x rfl)
  | fetch => exact (heeds_fetch c).tallies
  | clock now sweepers => exact (heeds_clock c.host now).tallies
  | step =>
    unfold brings outlay beat
    cases stepped : c.step app with
    | none =>
      rw [Option.getD_none, comesBack_of_same rfl]
      exact (Host.heeds_refl c.host).tallies
    | some d => exact tallies_step stepped

/-- Every beat adds to the stock what is granted in it, but for what is taken by request and for what
    is lost when the counter wraps. -/
theorem stock_beat (app : Application σ) (c : Connection σ) (instant : b.instant = true) :
    ∃ laps, c.host.stock + income app c b =
      (c.beat app b).host.stock + outlay app c b + UInt64.size * laps := by
  by_cases unchanged : ∀ x, b = .act x → x.changes = []
  · have tallies : Tallies app (brings app c b) (outlay app c b) c.host (c.beat app b).host :=
      tallies_beat instant unchanged
    obtain ⟨calls, laps, called, -, -, stock⟩ := tallies.called
    refine ⟨laps, ?_⟩
    rw [income, called, List.drop_left, ← Nat.add_assoc]
    exact stock
  · -- What changes the configuration leaves calls and units alone.
    push Not at unchanged
    obtain ⟨x, rfl, changes⟩ := unchanged
    have uncalled : app.grants c.host.memory (c.host.calls.drop c.host.calls.length) = 0 := by
      rw [List.drop_length]
      rfl
    cases x with
    | change | setIdleTimeout => exact ⟨0, congrArg (c.host.stock + ·) uncalled⟩
    | _ => exact (changes rfl).elim

theorem stock_beats (app : Application σ) (c : Connection σ)
    (instant : ∀ b ∈ bs, b.instant = true) :
    ∃ laps, c.host.stock + grantedIn app c bs =
      (beats app c bs).host.stock + requestedIn app c bs + UInt64.size * laps := by
  induction bs generalizing c with
  | nil => exact ⟨0, rfl⟩
  | cons b bs ih =>
    obtain ⟨i, first⟩ := stock_beat app c (instant b List.mem_cons_self)
    obtain ⟨j, rest⟩ := ih (c.beat app b) fun b mem => instant b (List.mem_cons_of_mem _ mem)
    refine ⟨i + j, ?_⟩
    have whole : beats app c (b :: bs) = beats app (c.beat app b) bs := rfl
    rw [grantedIn, requestedIn, whole, Nat.mul_add]
    omega

/-! ### The counter -/

theorem stock_establish (supervised : Bool) (memory : σ) (handler : Handler) (id : ConnectionId)
    (config : Config) (interval : Duration) (house : House) :
    (establish supervised memory handler id config interval house).host.stock = 0 := by
  unfold establish
  dsimp only
  split <;> rfl

/-- A grant adds to what is there exactly if the sum is below 2^64. -/
theorem le_demand_grant_iff (s : Session) (n : UInt64) :
    s.demand ≤ (s.grant n).demand ↔ s.demand.toNat + n.toNat < UInt64.size := by
  have sum : (s.demand + n).toNat = (s.demand.toNat + n.toNat) % UInt64.size :=
    UInt64.toNat_add _ _
  have low : s.demand.toNat < UInt64.size := s.demand.toNat_lt
  have small : n.toNat < UInt64.size := n.toNat_lt
  rw [UInt64.le_iff_toNat_le, Session.grant, sum]
  constructor
  · intro le
    by_contra beyond
    have wrapped : (s.demand.toNat + n.toNat) % UInt64.size =
        s.demand.toNat + n.toNat - UInt64.size := by
      rw [Nat.mod_eq_sub_mod (by omega), Nat.mod_eq_of_lt (by omega)]
    omega
  · intro within
    rw [Nat.mod_eq_of_lt within]
    omega

theorem takeDemand_eq_true_iff :
    (c.act app .takeDemand).2 = .flag true ↔ c.host.session.demand ≠ 0 := by
  unfold act
  dsimp only
  split
  · next taken => exact iff_of_true rfl (Session.eq_of_take? taken).1
  · next none => exact iff_of_false (by simp) (not_not.mpr (take?_eq_none.mp none))

/-- In every run the counter holds the remainder modulo 2^64 of what was granted and not taken.  So a
    grant leaves no less than was there exactly if it fits in above it, and a unit can be taken exactly
    if what is open is no multiple of 2^64; as long as less than 2^64 is open, that is exactly if fewer
    units were taken than granted. -/
theorem demand_is_remainder (app : Application σ) (supervised : Bool) (memory : σ)
    (handler : Handler) (id : ConnectionId) (config : Config) (interval : Duration) (house : House)
    (bs : List Beat) (instant : ∀ b ∈ bs, b.instant = true) :
    let c₀ := establish supervised memory handler id config interval house
    let c := beats app c₀ bs
    let demand := c.host.session.demand
    takenIn app c₀ bs ≤ grantedIn app c₀ bs ∧
      demand.toNat = (grantedIn app c₀ bs - takenIn app c₀ bs) % UInt64.size ∧
      (∀ n, demand ≤ (c.act app (.demand n)).1.host.session.demand ↔
        demand.toNat + n.toNat < UInt64.size) ∧
      ((c.act app .takeDemand).2 = .flag true ↔
        ¬ UInt64.size ∣ grantedIn app c₀ bs - takenIn app c₀ bs) ∧
      (grantedIn app c₀ bs < takenIn app c₀ bs + UInt64.size →
        demand.toNat = grantedIn app c₀ bs - takenIn app c₀ bs ∧
        ((c.act app .takeDemand).2 = .flag true ↔ takenIn app c₀ bs < grantedIn app c₀ bs)) := by
  intro c₀ c demand
  obtain ⟨laps, whole⟩ := stock_beats app c₀ instant
  have nothing : c₀.host.stock = 0 :=
    stock_establish supervised memory handler id config interval house
  have account : grantedIn app c₀ bs = demand.toNat + takenIn app c₀ bs + UInt64.size * laps := by
    have stock : (beats app c₀ bs).host.stock = demand.toNat + (beats app c₀ bs).host.drawn := rfl
    rw [nothing, stock] at whole
    rw [takenIn]
    omega
  have low : demand.toNat < UInt64.size := demand.toNat_lt
  have left : grantedIn app c₀ bs - takenIn app c₀ bs = demand.toNat + UInt64.size * laps := by omega
  have remainder : demand.toNat = (grantedIn app c₀ bs - takenIn app c₀ bs) % UInt64.size := by
    rw [left, Nat.add_mul_mod_self_left, Nat.mod_eq_of_lt low]
  have some : (c.act app .takeDemand).2 = .flag true ↔
      ¬ UInt64.size ∣ grantedIn app c₀ bs - takenIn app c₀ bs := by
    rw [takeDemand_eq_true_iff, Nat.dvd_iff_mod_eq_zero, ← remainder]
    exact not_congr UInt64.toNat_inj.symm
  refine ⟨by omega, remainder, fun n => le_demand_grant_iff c.host.session n, some, fun within => ?_⟩
  have exactly : demand.toNat = grantedIn app c₀ bs - takenIn app c₀ bs := by
    rw [remainder]
    exact Nat.mod_eq_of_lt (by omega)
  refine ⟨exactly, ?_⟩
  rw [takeDemand_eq_true_iff]
  refine (not_congr UInt64.toNat_inj.symm).trans ?_
  show demand.toNat ≠ 0 ↔ _
  omega

/-- Units come from outside, from the application and back from its assembler, and go to the driver and
    to a waiter. -/
theorem demand_is_remainder_of_ping :
    let app : Application Unit :=
      ⟨{ Hooks.none with onText := true }, fun s _ => (s, ⟨[.demand 1], .succeed⟩), fun _ => false⟩
    let bs : List Beat := [.act (.start false), .step, .step, .step, .act (.demand 2),
      .act (.arrive [.ping [], .text "hi"]), .step, .step, .step, .step, .step, .step,
      .act .waitForDemand, .step, .step]
    let c₀ := establish false () (.assembling .fresh) ⟨1⟩ (Config.standard.setDemanding true) .zero
      .empty
    let c := beats app c₀ bs
    (∀ b ∈ bs, b.instant = true) ∧ grantedIn app c₀ bs = 4 ∧ takenIn app c₀ bs = 3 ∧
      c.host.session.demand.toNat = grantedIn app c₀ bs - takenIn app c₀ bs ∧
      ((c.act app .takeDemand).2 = .flag true ↔ takenIn app c₀ bs < grantedIn app c₀ bs) := by
  intro app bs
  dsimp only
  obtain ⟨c₀, born⟩ : ∃ c : Connection Unit, establish false () (.assembling .fresh) ⟨1⟩
    (Config.standard.setDemanding true) .zero .empty = c := ⟨_, rfl⟩
  have instant : ∀ b ∈ bs, b.instant = true := by decide
  have given : grantedIn app c₀ bs = 4 := by
    rw [← born]
    decide
  have gone : takenIn app c₀ bs = 3 := by
    rw [← born]
    decide
  have run := demand_is_remainder app false () (.assembling .fresh) ⟨1⟩
    (Config.standard.setDemanding true) .zero .empty bs instant
  dsimp only at run
  rw [born] at run ⊢
  refine ⟨instant, given, gone, run.2.2.2.2 ?_⟩
  rw [given, gone]
  decide

/-- A unit on top of 2^64 - 1 leaves nothing, and nothing can be taken, though nothing was. -/
theorem demand_lost_at_top :
    let app : Application Unit := ⟨.none, fun s _ => (s, ⟨[], .succeed⟩), fun _ => false⟩
    let c₀ := establish false () .direct ⟨1⟩ .standard .zero .empty
    let bs : List Beat := [.act (.demand 18446744073709551615)]
    let c := beats app c₀ bs
    let d := c.beat app (.act (.demand 1))
    d.host.session.demand < c.host.session.demand ∧
      takenIn app c₀ (bs ++ [.act (.demand 1)]) < grantedIn app c₀ (bs ++ [.act (.demand 1)]) ∧
      (d.act app .takeDemand).2 ≠ .flag true := by
  intro app c₀ bs c d
  refine ⟨by decide, by decide, ?_⟩
  rw [ne_eq, takeDemand_eq_true_iff, not_not]
  decide

end Connection

end WebSocketEngine
