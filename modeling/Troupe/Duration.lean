import Troupe.Json.Decoder
import Troupe.Json.Printer

/-!
# Spans of time

A duration is a number of whole seconds and a number of nanoseconds below one second. It is shown
in the largest unit that fits into it, and written in JSON as its two parts.

## Main definitions

* `Duration` — the spans of time, `Duration.ofMillis`, `Duration.ceilMillis`
* `Duration.shown` — the text of a duration with its unit
* `Duration.toJson`, `Duration.decoder` — the JSON form
-/

namespace Troupe

open Text

/-- A span of time. -/
structure Duration where
  /-- The whole seconds. -/
  secs : Nat
  /-- The nanoseconds that remain. -/
  nanos : Nat
  deriving Repr, DecidableEq, Inhabited

namespace Duration

/-- A span of whole seconds. -/
def ofSecs (n : Nat) : Duration := ⟨n, 0⟩

/-- A span of milliseconds. -/
def ofMillis (n : Nat) : Duration := ⟨n / 1000, n % 1000 * 1000000⟩

/-- The milliseconds of a span, the last one counted in full. -/
def ceilMillis (d : Duration) : Nat := d.secs * 1000 + (d.nanos + 999999) / 1000000

/-- The whole span in nanoseconds. -/
def totalNanos (d : Duration) : Nat := d.secs * 1000000000 + d.nanos

/-- The span with `nanos` carried into the seconds. -/
def carried (secs nanos : Nat) : Duration := ⟨secs + nanos / 1000000000, nanos % 1000000000⟩

/-! ### Text -/

/-- The digits behind the point of `part / 10 ^ places`, without trailing zeros. -/
def fraction (part places : Nat) : List Char :=
  let ds := digits part
  let ds := List.replicate (places - ds.length) '0' ++ ds
  (ds.reverse.dropWhile (· == '0')).reverse

/-- The text of `whole + part / 10 ^ places` in a unit. -/
def inUnit (whole part places : Nat) (name : String) : String :=
  let behind := if part = 0 then [] else '.' :: fraction part places
  String.ofList (digits whole ++ behind) ++ name

/-- The text of a duration: the largest unit of which it has at least one, and a fraction without
trailing zeros. -/
def shown (d : Duration) : String :=
  if 0 < d.secs then inUnit d.secs d.nanos 9 "s"
  else if 1000000 ≤ d.nanos then inUnit (d.nanos / 1000000) (d.nanos % 1000000) 6 "ms"
  else if 1000 ≤ d.nanos then inUnit (d.nanos / 1000) (d.nanos % 1000) 3 "µs"
  else inUnit d.nanos 0 0 "ns"

/-! ### JSON -/

/-- The JSON form of a duration. -/
def toJson (d : Duration) : Json := .obj [("secs", .ofNat d.secs), ("nanos", .ofNat d.nanos)]

/-- The parts of a duration read so far. -/
structure Draft where
  /-- The seconds, once read. -/
  secs : Option Nat
  /-- The nanoseconds, once read. -/
  nanos : Option Nat

/-- The duration of a draft: both parts are needed, and the seconds stay within 64 bits. -/
def Draft.complete (draft : Draft) : Option Duration := do
  let d := carried (← draft.secs) (← draft.nanos)
  if d.secs ≤ Json.wordMax then some d else none

/-- The JSON shape of a duration. No other members are allowed. -/
def shape : Json.RecordShape Draft Duration where
  fields :=
    [{ name := "secs"
       given := (·.secs.isSome)
       decoder := (Json.Decoder.count Json.wordMax).map fun n d => { d with secs := some n } },
     { name := "nanos"
       given := (·.nanos.isSome)
       decoder := (Json.Decoder.count 0xFFFFFFFF).map fun n d => { d with nanos := some n } }]
  tolerant := false
  blank := ⟨none, none⟩
  complete := Draft.complete

/-- Reads a duration. -/
def decoder : Json.Decoder Duration := .record shape

end Duration

end Troupe
