import EviAssist.Text.Search
import EviAssist.Text.Numeral

/-!
# Durations

* `Duration.text`: a duration in its largest unit, without idle zeros.
-/

namespace EviAssist

/-- A span of time. -/
structure Duration where
  nanoseconds : Nat
  deriving DecidableEq, Inhabited, Repr

namespace Duration

/-- A number of milliseconds. -/
def ofMillis (n : Nat) : Duration :=
  ⟨n * 1000000⟩

/-- A number of seconds. -/
def ofSeconds (n : Nat) : Duration :=
  ⟨n * 1000000000⟩

/-- The whole milliseconds of a duration. -/
def millis (d : Duration) : Nat :=
  d.nanoseconds / 1000000

/-- The digits after the point of a fraction `n / 10 ^ places`, without zeros at the end. -/
def fraction (places n : Nat) : List Char :=
  let digits := Text.decimal n
  ((List.replicate (places - digits.length) '0' ++ digits).reverse.dropWhile (· == '0')).reverse

/-- A number of units of `10 ^ places` nanoseconds each. -/
def inUnits (places nanoseconds : Nat) : List Char :=
  let whole := Text.decimal (nanoseconds / Nat.pow 10 places)
  match fraction places (nanoseconds % Nat.pow 10 places) with
  | [] => whole
  | digits => whole ++ '.' :: digits

/-- A duration in seconds, milliseconds, microseconds or nanoseconds, the largest unit that it
reaches. -/
def text (d : Duration) : String :=
  let n := d.nanoseconds
  if 1000000000 ≤ n then String.ofList (inUnits 9 n) ++ "s"
  else if 1000000 ≤ n then String.ofList (inUnits 6 n) ++ "ms"
  else if 1000 ≤ n then String.ofList (inUnits 3 n) ++ "µs"
  else String.ofList (inUnits 0 n) ++ "ns"

end Duration

end EviAssist
