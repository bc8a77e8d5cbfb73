import WebSocketEngine.Idle.Tracker
import Mathlib.Order.MinMax

/-!
Activity, as a tracker records it.

    beginning                    2⁶⁴ - 1 ms later
        ├────┼────┼────┼── .. ──┼────┤
                  ◀ ·           ◀ ·  ◀────── ·

An instant is recorded downwards, to the whole millisecond after the beginning.  So less than a
millisecond is lost of it (`lt_recorded_add`), unless it comes later than milliseconds are counted:
then it is recorded as the last one of them (`recorded_of_late`).  Of several instants the latest one
decides, and only its milliseconds are cut off (`foldl_max_recorded`).
-/

namespace WebSocketEngine.Idle

/-- An instant as it is recorded: in whole milliseconds after the beginning, as many as are
    counted. -/
def recorded (origin time : Instant) : Instant :=
  origin + (Duration.ofMillis (min (Duration.between origin time).millis maxMillis)).nanos

/-- The most whole milliseconds after the beginning, of some instants. -/
def furthest (origin : Instant) (times : List Instant) : Nat :=
  (times.map fun time => (Duration.between origin time).millis).foldl max 0

/-- An instant on a clock that began with the tracker; what comes later than milliseconds are counted
    counts as the last one of them. -/
def counted (time : Instant) : Instant := min time (Duration.ofMillis maxMillis).nanos

variable {origin time earlier : Nat}

theorem recorded_eq (origin time : Nat) :
    recorded origin time = origin + min ((time - origin) / 1000000) maxMillis * 1000000 := rfl

theorem counted_eq (time : Nat) : counted time = min time (maxMillis * 1000000) := rfl

/-- Less than a millisecond is lost of an instant that is counted. -/
theorem lt_recorded_add (fits : (Duration.between origin time).millis ≤ maxMillis) :
    time < recorded origin time + 1000000 := by
  have fits : (time - origin) / 1000000 ≤ maxMillis := fits
  rw [recorded_eq, Nat.min_eq_left fits]
  omega

/-- Nothing is lost of a whole number of milliseconds. -/
theorem le_recorded_of_dvd (fits : (Duration.between origin time).millis ≤ maxMillis)
    (whole : 1000000 ∣ time - origin) : time ≤ recorded origin time := by
  have fits : (time - origin) / 1000000 ≤ maxMillis := fits
  rw [recorded_eq, Nat.min_eq_left fits, Nat.div_mul_cancel whole]
  omega

theorem recorded_of_dvd (whole : 1000000 ∣ time) : recorded 0 time = counted time := by
  obtain ⟨k, rfl⟩ := whole
  have fits : ∀ cap : Nat,
      0 + min ((1000000 * k - 0) / 1000000) cap * 1000000 = min (1000000 * k) (cap * 1000000) := by
    omega
  rw [recorded_eq, counted_eq]
  exact fits maxMillis

/-- The latest of some instants is recorded like the one that is furthest from the beginning. -/
theorem foldl_max_recorded (origin : Instant) (times : List Instant) :
    (times.map (recorded origin)).foldl max origin =
      origin + (Duration.ofMillis (min (furthest origin times) maxMillis)).nanos := by
  suffices onward : ∀ first, (times.map (recorded origin)).foldl max
      (origin + (Duration.ofMillis (min first maxMillis)).nanos) =
        origin + (Duration.ofMillis (min ((times.map fun time =>
          (Duration.between origin time).millis).foldl max first) maxMillis)).nanos by
    have began : origin + (Duration.ofMillis (min 0 maxMillis)).nanos = origin := by
      simp [Duration.ofMillis]
    rw [furthest, ← onward 0, began]
  induction times with
  | nil =>
    -- By rewriting only: comparing by computation alone would count nanoseconds.
    intro first
    rw [List.map_nil, List.foldl_nil, List.map_nil, List.foldl_nil]
  | cons time times ih =>
    intro first
    have apart : ∀ origin a b cap : Nat,
        max (origin + min a cap * 1000000) (origin + min b cap * 1000000) =
          origin + min (max a b) cap * 1000000 := by omega
    have step : max (origin + (Duration.ofMillis (min first maxMillis)).nanos)
        (recorded origin time) = origin + (Duration.ofMillis
          (min (max first (Duration.between origin time).millis) maxMillis)).nanos :=
      apart _ _ _ _
    rw [List.map_cons, List.foldl_cons, step, ih, List.map_cons, List.foldl_cons]

theorem counted_le (time : Instant) : counted time ≤ time := Nat.min_le_left _ _

theorem counted_mono (later : earlier ≤ time) : counted earlier ≤ counted time :=
  min_le_min_right _ later

namespace Tracker

theorem lastActivity_start (now : Instant) : (start now).lastActivity = now := by
  simp [lastActivity, start, Duration.ofMillis]

theorem lastActivity_touch (t : Tracker) (time : Instant) :
    (t.touch time).lastActivity = max t.lastActivity (recorded t.origin time) := by
  have beginning : ∀ origin a b : Nat,
      origin + max a b * 1000000 = max (origin + a * 1000000) (origin + b * 1000000) := by omega
  exact beginning _ _ _

end Tracker

end WebSocketEngine.Idle
