import WebSocketEngine.Host.Basic
import WebSocketEngine.Proofs.Idle.Monitoring

/-!
From the timeout that is asked for to the one that checks go by.

    asked for     below 1 ms    from 1 ms on        beyond 2⁶⁴ - 1 ms
    kept          zero          whole milliseconds  2⁶⁴ - 1 ms

Whichever way it is given to a configuration, it is kept like that (`idleTimeout_of_given`).  So
checks find expiries as soon as what is kept has passed, which is never later than what was asked
for; and a timeout of less than a millisecond turns them off, just as zero does
(`answers_of_given`).
-/

namespace WebSocketEngine.Idle.Monitor

variable {σ : Type} {d : Duration} {c : Config}

/-! ### What is kept -/

theorem kept_nanos (d : Duration) :
    (kept d).nanos = min (d.nanos / 1000000) maxMillis * 1000000 := rfl

theorem kept_le (d : Duration) : (kept d).nanos ≤ d.nanos := by
  rw [kept_nanos]
  omega

/-- Nothing is kept of less than a millisecond. -/
theorem kept_eq_zero_iff (d : Duration) : kept d = .zero ↔ d.nanos < 1000000 := by
  have room : 0 < maxMillis := by decide
  have nothing : ∀ k : Duration, k = .zero ↔ k.nanos = 0 := by
    rintro ⟨nanos⟩
    simp [Duration.zero]
  rw [nothing, kept_nanos]
  omega

/-! ### Ways to give a timeout -/

/-- A configuration that has just been given a timeout: by itself, among other values, or by way of
    its session. -/
inductive Given (σ : Type) (d : Duration) : Config → Prop
  | alone (c : Config) : Given σ d (c.setIdleTimeout d)
  | among (c : Config) (x : Config.Change) (named : x.idle = some d) : Given σ d (c.apply x)
  | bySession (h : Host σ) : Given σ d (h.perform (.setIdleTimeout d)).session.config

theorem idleTimeout_of_given (given : Given σ d c) : c.idleTimeout = kept d := by
  cases given with
  | alone c => rfl
  | among c x named =>
    rw [Config.apply_eq, named]
    rfl
  | bySession h => rfl

theorem timeout_run_of_unset (m : Monitor) {steps : List Step}
    (unset : ∀ timeout, .setTimeout timeout ∉ steps) : (m.run steps).timeout = m.timeout := by
  have none_set : steps.filterMap Step.timeout? = [] := by
    rw [List.filterMap_eq_nil_iff]
    intro s mem
    cases s with
    | touch | check | reset => rfl
    | setTimeout timeout => exact (unset timeout mem).elim
  rw [timeout_run, none_set]
  rfl

/-! ### Checks -/

/-- A tracker goes by a given timeout until another one is set.  Checks are turned off exactly by
    less than a millisecond, until an expiry was reported.  From a millisecond on, they find an
    expiry exactly when what is kept of the timeout has passed, hence at the latest when the timeout
    has. -/
theorem answers_of_given (m : Monitor) (given : Given σ d m.config) (steps : List Step)
    (unset : ∀ timeout, .setTimeout timeout ∉ steps) (now : Instant) :
    let later := m.run steps
    (later.answer now ≠ .closing → (later.answer now = .disabled ↔ d.nanos < 1000000)) ∧
    (∀ idleFor, later.answer now = .expired idleFor ↔ later.answer now ≠ .closing ∧
      1000000 ≤ d.nanos ∧ idleFor = ⟨now - later.lastActivity⟩ ∧
        (kept d).nanos ≤ idleFor.nanos) ∧
    (later.answer now ≠ .closing → 1000000 ≤ d.nanos → later.lastActivity + d.nanos ≤ now →
      later.answer now = .expired ⟨now - later.lastActivity⟩) := by
  intro later
  have timeout : later.timeout = kept d :=
    (timeout_run_of_unset m unset).trans (idleTimeout_of_given given)
  have open_iff : later.answer now ≠ .closing ↔ later.tracker.expired = false := by
    rw [Ne, answer_eq_closing_iff, Bool.not_eq_true]
  have expired_iff : ∀ idleFor, later.answer now = .expired idleFor ↔
      later.answer now ≠ .closing ∧ 1000000 ≤ d.nanos ∧ idleFor = ⟨now - later.lastActivity⟩ ∧
        (kept d).nanos ≤ idleFor.nanos := by
    intro idleFor
    rw [open_iff, answer_eq_expired_iff, timeout, Ne, kept_eq_zero_iff, Nat.not_lt]
  refine ⟨?_, expired_iff, ?_⟩
  · intro running
    rw [answer_eq_disabled_iff, timeout, kept_eq_zero_iff]
    simp [open_iff.mp running]
  · intro running long passed
    refine (expired_iff _).mpr ⟨running, long, rfl, ?_⟩
    exact (kept_le d).trans (Nat.le_sub_of_add_le' passed)

theorem answers_of_given_five_millis :
    let m := start 0 (Config.standard.setIdleTimeout (.ofMillis 5))
    let steps := [.touch 2000000, .check 3000000]
    (m.run steps).answer 7000000 = .expired (.ofMillis 5) :=
  have given : Given Unit (.ofMillis 5) (Config.standard.setIdleTimeout (.ofMillis 5)) := .alone _
  (answers_of_given (start 0 (Config.standard.setIdleTimeout (.ofMillis 5))) given
    [.touch 2000000, .check 3000000] (by simp) 7000000).2.2 (by decide) (by decide) (by decide)

/-- Half a millisecond is not zero, and turns checks off. -/
theorem half_milli_disables :
    let d : Duration := ⟨500000⟩
    d ≠ .zero ∧ (start 0 (Config.standard.setIdleTimeout d)).answer 1000000 = .disabled := by
  decide

end WebSocketEngine.Idle.Monitor
