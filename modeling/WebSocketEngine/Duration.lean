/-!
Lengths of time, kept to the nanosecond, and points on a clock that starts at zero.

The text of a duration takes the largest of the units s, ms, µs, ns that the duration reaches, and
as many decimals as it needs: `1.5s`, `800ms`, `1.001µs`, `0ns`.
-/

namespace WebSocketEngine

/-- Nanoseconds since the clock started. -/
abbrev Instant := Nat

/-- The most milliseconds that are counted: they are kept in 64 bits. -/
def maxMillis : Nat := UInt64.size - 1

/-- A length of time. -/
structure Duration where
  nanos : Nat
  deriving DecidableEq

namespace Duration

def zero : Duration := ⟨0⟩

def ofMillis (ms : Nat) : Duration := ⟨ms * 1000000⟩

def ofSeconds (secs nanos : Nat) : Duration := ⟨secs * 1000000000 + nanos⟩

/-- Whole milliseconds, rounded down. -/
def millis (d : Duration) : Nat := d.nanos / 1000000

/-- The time from `earlier` to `later`; nothing if `later` comes first. -/
def between (earlier later : Instant) : Duration := ⟨later - earlier⟩

/-! ### Text -/

/-- The decimal digits of `n`, filled up with zeros in front to `width` places. -/
def padded (width n : Nat) : List Char :=
  let digits := Nat.toDigits 10 n
  List.replicate (width - digits.length) '0' ++ digits

/-- The digits after the point for the part `rest` of a unit of ten to the `width`; zeros at the
    end are left out, and so is the point when nothing follows it. -/
def decimals (width rest : Nat) : List Char :=
  match ((padded width rest).reverse.dropWhile (· == '0')).reverse with
  | [] => []
  | ds => '.' :: ds

/-- `n` nanoseconds in a unit of ten to the `width` nanoseconds. -/
def inUnit (width n : Nat) (unit : String) : String :=
  let size := Nat.pow 10 width
  toString (n / size) ++ String.ofList (decimals width (n % size)) ++ unit

def text (d : Duration) : String :=
  if 1000000000 ≤ d.nanos then inUnit 9 d.nanos "s"
  else if 1000000 ≤ d.nanos then inUnit 6 d.nanos "ms"
  else if 1000 ≤ d.nanos then inUnit 3 d.nanos "µs"
  else inUnit 0 d.nanos "ns"

end Duration

end WebSocketEngine
