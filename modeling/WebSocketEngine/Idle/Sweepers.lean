import WebSocketEngine.Duration

/-!
Sweepers that run by themselves.

A sweeper sweeps when it is started, and from then on after a rest that is always the same.  It
knows nothing of the others: each one keeps to the beat of its own start, and the sweeps of all of
them come in the order of time.  One signal stops them all, and for good: a sweeper that is started
after it ends before its first sweep.

    started at t ──▶ sweeps ──▶ t + rest ──▶ sweeps ──▶ t + 2 · rest ──▶ …
         │                         │                        │
         └──────── signal ─────────┴────────────────────────┴──▶ ended

A rest takes thirty years at most, however long the interval is that was asked for.
-/

namespace WebSocketEngine.Idle

structure Sweepers where
  /-- When the next sweep of each running one falls due, in no particular order. -/
  due : List Instant
  /-- Some sweeper was started, whether it runs or not. -/
  started : Bool
  /-- The signal was given. -/
  stopped : Bool

namespace Sweepers

def none : Sweepers := ⟨[], false, false⟩

/-- Thirty years of 365 days. -/
def longestRest : Duration := .ofSeconds 946080000 0

/-- A sweeper that is started at `now`, and has swept unless the signal was given before. -/
def start (ss : Sweepers) (rest : Duration) (now : Instant) : Sweepers :=
  { ss with
    due := if ss.stopped then ss.due else (now + rest.nanos) :: ss.due
    started := true }

def stop (ss : Sweepers) : Sweepers := { ss with due := [], stopped := true }

/-- When the next sweep of any of them falls due. -/
def next? (ss : Sweepers) : Option Instant := ss.due.min?

/-- The first one for which a sweep falls due at `now` has swept. -/
def swept (ss : Sweepers) (rest : Duration) (now : Instant) : Sweepers :=
  { ss with due := (ss.due.erase now).concat (now + rest.nanos) }

/-- How many sweeps of a sweeper fall due up to and including `limit`, the next one at `next`. -/
def count (rest : Duration) (limit next : Instant) : Nat :=
  if limit < next then 0 else (limit - next) / rest.nanos + 1

/-- How many sweeps fall due up to and including `limit`. -/
def dueUntil (ss : Sweepers) (rest : Duration) (limit : Instant) : Nat :=
  ss.due.foldl (fun n next => n + count rest limit next) 0

end Sweepers

end WebSocketEngine.Idle
