import WebSocketEngine.Proofs.Config.Handles
import WebSocketEngine.Proofs.Idle.Recording
import WebSocketEngine.Proofs.Idle.Sweeping
import Mathlib.Data.List.Induction

/-!
One tracker over all that is done with it, at any instants and in any order.

                 last activity         reported          timeout in force
    touch        the later one           as it was         as it was
    reset        the later one           no                as it was
    check        as it was               if it expired     as it was
    setTimeout   as it was               as it was         the new one

The last activity is the latest one of all that were recorded (`lastActivity_run`), and an expiry
stays reported until the next reset (`expired_run_iff`).  So every answer to a check is decided by
the history before it (`answers_of_history`).

Activity is recorded to the whole millisecond, downwards and as far as milliseconds are counted,
while a check goes by exact instants.  So a check finds an expiry exactly if all that was recorded is
a timeout back, and what was recorded may be older than the activity itself: by less than a
millisecond, or by all that comes after the last millisecond that is counted
(`expired_iff_recorded_long_ago`).
-/

namespace WebSocketEngine.Idle

/-- A tracker and the configuration whose timeout it goes by. -/
structure Monitor where
  tracker : Tracker
  config : Config

namespace Monitor

/-! ### Histories -/

/-- What can be done with a tracker and its timeout. -/
inductive Step
  | touch (time : Instant)
  | check (time : Instant)
  | reset (time : Instant)
  | setTimeout (timeout : Duration)

/-- The activity that a step is. -/
def Step.activity? : Step → Option Instant
  | .touch time | .reset time => some time
  | .check _ | .setTimeout _ => none

def Step.timeout? : Step → Option Duration
  | .setTimeout timeout => some timeout
  | .touch _ | .check _ | .reset _ => none

def start (origin : Instant) (config : Config) : Monitor := ⟨.start origin, config⟩

def timeout (m : Monitor) : Duration := m.config.idleTimeout

def lastActivity (m : Monitor) : Instant := m.tracker.lastActivity

def answer (m : Monitor) (time : Instant) : State := (m.tracker.check m.timeout time).2

def act (m : Monitor) : Step → Monitor
  | .touch time => { m with tracker := m.tracker.touch time }
  | .check time => { m with tracker := (m.tracker.check m.timeout time).1 }
  | .reset time => { m with tracker := m.tracker.reset time }
  | .setTimeout timeout => { m with config := m.config.setIdleTimeout timeout }

def run (m : Monitor) (steps : List Step) : Monitor := steps.foldl act m

/-- The instants of all activities, the creation apart. -/
def activities (steps : List Step) : List Instant := steps.filterMap Step.activity?

/-- The latest activity, in whole milliseconds after the beginning, as many as are counted. -/
def latest (origin : Instant) (steps : List Step) : Instant :=
  origin + (Duration.ofMillis (min (furthest origin (activities steps)) maxMillis)).nanos

/-- A timeout as it is kept. -/
def kept (timeout : Duration) : Duration := .ofMillis (min timeout.millis maxMillis)

/-- A check has found an expiry, and no reset has come since. -/
def Reported (m : Monitor) (steps : List Step) : Prop :=
  ∃ past time idleFor since, steps = past ++ .check time :: since ∧
    (m.run past).answer time = .expired idleFor ∧ ∀ now, .reset now ∉ since

variable {m : Monitor} {origin time now : Instant} {config : Config}

theorem run_cons (m : Monitor) (s : Step) (steps : List Step) :
    m.run (s :: steps) = (m.act s).run steps := rfl

theorem run_concat (m : Monitor) (steps : List Step) (s : Step) :
    m.run (steps ++ [s]) = (m.run steps).act s := List.foldl_append

theorem activities_cons (s : Step) (steps : List Step) :
    activities (s :: steps) = s.activity?.elim (activities steps) (· :: activities steps) := by
  cases s <;> rfl

/-! ### One answer -/

theorem answer_eq_closing_iff : m.answer now = .closing ↔ m.tracker.expired = true := by
  unfold answer Tracker.check
  split_ifs <;> simp_all

theorem answer_eq_disabled_iff :
    m.answer now = .disabled ↔ m.tracker.expired = false ∧ m.timeout = .zero := by
  unfold answer Tracker.check
  split_ifs <;> simp_all

theorem answer_eq_expired_iff {idleFor : Duration} :
    m.answer now = .expired idleFor ↔ m.tracker.expired = false ∧ m.timeout ≠ .zero ∧
      idleFor = ⟨now - m.lastActivity⟩ ∧ m.timeout.nanos ≤ idleFor.nanos := by
  have idle : m.tracker.idleFor now = ⟨now - m.lastActivity⟩ := rfl
  unfold answer Tracker.check
  rw [idle]
  constructor
  · intro found
    split_ifs at found with reported disabled soon
    obtain rfl := State.expired.inj found
    exact ⟨by simpa using reported, disabled, rfl, Nat.le_of_not_lt soon⟩
  · rintro ⟨armed, enabled, rfl, passed⟩
    simp [armed, enabled, Nat.not_lt.mpr passed]

/-! ### One step -/

theorem act_check (m : Monitor) (time : Instant) :
    m.act (.check time) = { m with tracker := { m.tracker with
      expired := m.tracker.expired || (m.answer time).idleFor?.isSome } } := by
  rcases m.tracker.check_cases m.timeout time with ⟨quiet, same, -⟩ | ⟨found, changed, -⟩
  · simp [act, answer, quiet, same]
  · simp [act, answer, found, changed]

theorem origin_act (m : Monitor) (s : Step) : (m.act s).tracker.origin = m.tracker.origin := by
  cases s with
  | check time => rw [act_check]
  | touch time | reset time | setTimeout timeout => rfl

/-- Activity moves the last activity forward, if at all. -/
theorem lastActivity_act (m : Monitor) (s : Step) :
    (m.act s).lastActivity =
      s.activity?.elim m.lastActivity fun time =>
        max m.lastActivity (recorded m.tracker.origin time) := by
  -- The right side is rewritten first: comparing by computation alone would count nanoseconds.
  cases s with
  | check time =>
    rw [act_check, Step.activity?, Option.elim_none]
    rfl
  | touch time | reset time =>
    rw [Step.activity?, Option.elim_some]
    exact m.tracker.lastActivity_touch time
  | setTimeout timeout =>
    rw [Step.activity?, Option.elim_none]
    rfl

theorem timeout_act (m : Monitor) (s : Step) :
    (m.act s).timeout = s.timeout?.elim m.timeout kept := by
  cases s with
  | check time => rw [act_check]; rfl
  | touch time | reset time | setTimeout timeout => rfl

/-- A check that finds an expiry sets the flag, a reset takes it back, and nothing else does
    anything about it. -/
theorem expired_act (m : Monitor) (s : Step) :
    (m.act s).tracker.expired = true ↔
      (∃ time idleFor, s = .check time ∧ m.answer time = .expired idleFor) ∨
        (m.tracker.expired = true ∧ ∀ now, s ≠ .reset now) := by
  cases s with
  | check time =>
    rw [act_check]
    cases answer : m.answer time <;> simp [answer, State.idleFor?]
  | touch time => simp [act, Tracker.touch]
  | reset time => simp [act, Tracker.reset]
  | setTimeout timeout => simp [act]

/-! ### All steps -/

/-- The last activity is the latest one of all. -/
theorem lastActivity_run (m : Monitor) (steps : List Step) :
    (m.run steps).lastActivity =
      ((activities steps).map (recorded m.tracker.origin)).foldl max m.lastActivity := by
  induction steps generalizing m with
  | nil => exact List.foldl_nil.symm
  | cons s steps ih =>
    rw [run_cons, ih, origin_act, lastActivity_act, activities_cons]
    cases s.activity? with
    | none => rw [Option.elim_none, Option.elim_none]
    | some time => rw [Option.elim_some, Option.elim_some, List.map_cons, List.foldl_cons]

theorem timeout_run (m : Monitor) (steps : List Step) :
    (m.run steps).timeout = (steps.filterMap Step.timeout?).getLast?.elim m.timeout kept := by
  induction steps using List.reverseRecOn with
  | nil => rfl
  | append_singleton steps s ih =>
    rw [run_concat, timeout_act, ih, Config.getLast?_filterMap_concat]
    cases s <;> rfl

theorem lastActivity_start_run (origin : Instant) (config : Config) (steps : List Step) :
    ((start origin config).run steps).lastActivity = latest origin steps := by
  have first : (start origin config).lastActivity = origin := Tracker.lastActivity_start origin
  rw [lastActivity_run, first, latest, ← foldl_max_recorded]
  rfl

theorem foldl_max_le_iff {a b : Nat} (l : List Nat) :
    l.foldl max a ≤ b ↔ a ≤ b ∧ ∀ x ∈ l, x ≤ b := by
  induction l generalizing a with
  | nil => simp
  | cons x l ih => rw [List.foldl_cons, ih, Nat.max_le, List.forall_mem_cons, and_assoc]

/-- The latest of all has come by some time if each has. -/
theorem latest_le_iff (origin : Instant) (steps : List Step) (now : Instant) :
    latest origin steps ≤ now ↔
      origin ≤ now ∧ ∀ time ∈ activities steps, recorded origin time ≤ now := by
  rw [latest, ← foldl_max_recorded, foldl_max_le_iff, List.forall_mem_map]

/-- The latest of all is some time back if each is. -/
theorem latest_add_le_iff (origin : Instant) (steps : List Step) (span : Nat) (now : Instant) :
    latest origin steps + span ≤ now ↔
      origin + span ≤ now ∧ ∀ time ∈ activities steps, recorded origin time + span ≤ now := by
  by_cases room : span ≤ now
  · have back : ∀ time : Instant, time + span ≤ now ↔ time ≤ now - span := by
      intro time
      exact (Nat.le_sub_iff_add_le room).symm
    simp only [back]
    exact latest_le_iff origin steps (now - span)
  · constructor
    · intro long
      exact (room (Nat.le_of_add_left_le long)).elim
    · intro long
      exact (room (Nat.le_of_add_left_le long.1)).elim

/-! ### Expiry -/

theorem reported_concat (m : Monitor) (steps : List Step) (s : Step) :
    Reported m (steps ++ [s]) ↔
      (∃ time idleFor, s = .check time ∧ (m.run steps).answer time = .expired idleFor) ∨
        (Reported m steps ∧ ∀ now, s ≠ .reset now) := by
  constructor
  · rintro ⟨past, time, idleFor, since, split, found, armed⟩
    -- The check that found it is the last step, or comes before the last one.
    rcases List.eq_nil_or_concat since with rfl | ⟨since, x, rfl⟩
    · obtain ⟨rfl, last⟩ := List.append_inj' split rfl
      exact .inl ⟨time, idleFor, List.singleton_inj.mp last, found⟩
    · have longer : steps ++ [s] = (past ++ .check time :: since) ++ [x] := by simpa using split
      obtain ⟨rfl, last⟩ := List.append_inj' longer rfl
      obtain rfl := List.singleton_inj.mp last
      have other : ∀ now, .reset now ∉ since ∧ s ≠ .reset now := by
        simpa [not_or, eq_comm] using armed
      exact .inr ⟨⟨past, time, idleFor, since, rfl, found, fun now => (other now).1⟩,
        fun now => (other now).2⟩
  · rintro (⟨time, idleFor, rfl, found⟩ | ⟨⟨past, time, idleFor, since, rfl, found, armed⟩, other⟩)
    · exact ⟨steps, time, idleFor, [], rfl, found, by simp⟩
    · refine ⟨past, time, idleFor, since ++ [s], by simp, found, ?_⟩
      intro now mem
      rcases List.mem_append.mp mem with before | last
      · exact armed now before
      · exact other now (List.mem_singleton.mp last).symm

theorem not_reported_nil (m : Monitor) : ¬ Reported m [] := by
  rintro ⟨past, time, idleFor, since, split, -⟩
  simp at split

/-- An expiry stays reported until the next reset. -/
theorem expired_run_iff (armed : m.tracker.expired = false) (steps : List Step) :
    (m.run steps).tracker.expired = true ↔ Reported m steps := by
  induction steps using List.reverseRecOn with
  | nil => simp [run, armed, not_reported_nil]
  | append_singleton steps s ih => rw [run_concat, expired_act, reported_concat, ih]

/-! ### Whole histories -/

/-- A timeout that is in force is a millisecond at least. -/
theorem le_timeout (enabled : m.timeout ≠ .zero) : 1000000 ≤ m.timeout.nanos := by
  have millis : m.config.idleMillis ≠ 0 := by
    intro none
    exact enabled (by rw [timeout, Config.idleTimeout, none]; rfl)
  show 1000000 ≤ m.config.idleMillis * 1000000
  omega

/-- Ten seconds after the last millisecond that is counted, a reset comes too late for a timeout of
    one. -/
example :
    let m := start 0 (Config.standard.setIdleTimeout (.ofMillis 1000))
    let time := (Duration.ofMillis (maxMillis + 10000)).nanos
    (m.run [.reset time]).answer time = .expired (.ofMillis 10000) := by
  decide

/-! ### Lost parts of milliseconds -/

/-- A check finds an expiry exactly if all that was recorded is a timeout back.  Then all activity
    that is counted is that far back too, but for less than a millisecond, and fully if it came a
    whole number of milliseconds after the beginning. -/
theorem expired_iff_recorded_long_ago (origin : Instant) (config : Config) (steps : List Step)
    (now : Instant) :
    let m := (start origin config).run steps
    ((∃ idleFor, m.answer now = .expired idleFor) ↔
      ¬ Reported (start origin config) steps ∧ m.timeout ≠ .zero ∧
        origin + m.timeout.nanos ≤ now ∧
        ∀ time ∈ activities steps, recorded origin time + m.timeout.nanos ≤ now) ∧
    ∀ idleFor, m.answer now = .expired idleFor → ∀ time ∈ activities steps,
      (Duration.between origin time).millis ≤ maxMillis →
        time + m.timeout.nanos < now + 1000000 ∧
          (1000000 ∣ time - origin → time + m.timeout.nanos ≤ now) := by
  intro m
  have reported : m.tracker.expired = true ↔ Reported (start origin config) steps :=
    expired_run_iff rfl steps
  have expired_iff : (∃ idleFor, m.answer now = .expired idleFor) ↔
      ¬ Reported (start origin config) steps ∧ m.timeout ≠ .zero ∧
        origin + m.timeout.nanos ≤ now ∧
        ∀ time ∈ activities steps, recorded origin time + m.timeout.nanos ≤ now := by
    have long := latest_add_le_iff origin steps m.timeout.nanos now
    have fits : ∀ last span now : Nat, 1000000 ≤ span → span ≤ now - last → last + span ≤ now := by
      omega
    rw [← reported, ← long, ← lastActivity_start_run origin config]
    constructor
    · rintro ⟨idleFor, found⟩
      obtain ⟨armed, enabled, rfl, passed⟩ := answer_eq_expired_iff.mp found
      exact ⟨by simp [armed], enabled, fits _ _ _ (le_timeout enabled) passed⟩
    · rintro ⟨armed, enabled, back⟩
      refine ⟨⟨now - m.lastActivity⟩, answer_eq_expired_iff.mpr ⟨?_, enabled, rfl, ?_⟩⟩
      · simpa using armed
      · exact Nat.le_sub_of_add_le' back
  refine ⟨expired_iff, ?_⟩
  intro idleFor found time mem counts
  obtain ⟨-, -, -, past⟩ := expired_iff.mp ⟨idleFor, found⟩
  have back := past time mem
  constructor
  · have fits : ∀ time heard span now : Nat, time < heard + 1000000 → heard + span ≤ now →
      time + span < now + 1000000 := by omega
    exact fits _ _ _ _ (lt_recorded_add counts) back
  · intro whole
    exact (Nat.add_le_add_right (le_recorded_of_dvd counts whole) _).trans back

/-- Activity 1.999999 ms after the beginning is found to be 5 ms back at 6 ms. -/
theorem expired_early :
    let m := (start 0 (Config.standard.setIdleTimeout (.ofMillis 5))).run [.touch 1999999]
    m.answer 6000000 = .expired (.ofMillis 5) ∧ ¬ 1999999 + m.timeout.nanos ≤ 6000000 := by
  decide

end Monitor

end WebSocketEngine.Idle
