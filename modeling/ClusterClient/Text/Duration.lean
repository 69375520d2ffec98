/-!
# Durations and their text

A `Duration` is a whole number of nanoseconds. Its text uses the largest of the units second,
millisecond, microsecond and nanosecond that leaves a nonzero whole part, and writes the rest as
decimals without trailing zeros.
-/

namespace ClusterClient

/-- A length of time, in nanoseconds. -/
structure Duration where
  nanoseconds : Nat
  deriving DecidableEq, Repr, Inhabited

namespace Duration

/-- A number of seconds and nanoseconds. -/
def ofParts (seconds nanoseconds : Nat) : Duration :=
  ⟨seconds * 1000000000 + nanoseconds⟩

/-- A whole number of milliseconds. -/
def ofMillis (ms : Nat) : Duration :=
  ⟨ms * 1000000⟩

/-- The decimals of `rest` out of `10 ^ places`, without trailing zeros; empty when there are
none. -/
def decimals (rest places : Nat) : String :=
  let digits := (Nat.toDigits 10 rest)
  let padded := List.replicate (places - digits.length) '0' ++ digits
  let kept := (padded.reverse.dropWhile (· = '0')).reverse
  if kept = [] then "" else "." ++ String.ofList kept

/-- A count of nanoseconds in a unit of `10 ^ places` nanoseconds. -/
def inUnit (n places : Nat) (unit : String) : String :=
  (n / Nat.pow 10 places).repr ++ decimals (n % Nat.pow 10 places) places ++ unit

/-- The text of a duration. -/
def text (d : Duration) : String :=
  if 1000000000 ≤ d.nanoseconds then inUnit d.nanoseconds 9 "s"
  else if 1000000 ≤ d.nanoseconds then inUnit d.nanoseconds 6 "ms"
  else if 1000 ≤ d.nanoseconds then inUnit d.nanoseconds 3 "µs"
  else inUnit d.nanoseconds 0 "ns"

instance : ToString Duration := ⟨text⟩

end Duration

end ClusterClient
