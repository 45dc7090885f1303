import LedgerClient.WallTime

namespace LedgerClient

/-- A span of time whose whole seconds fit a word of 64 bits. -/
@[ext]
structure Duration where
  nanos : Nat
  bounded : nanos < UInt64.size * nanosPerSecond
deriving DecidableEq

instance : Inhabited Duration := ⟨0, by decide⟩

def Duration.ofMillis (ms : UInt64) : Duration :=
  ⟨ms.toNat * 1000000, by
    have h := ms.toNat_lt
    simp only [UInt64.size, nanosPerSecond]
    omega⟩

/-- The span in whole milliseconds. -/
def Duration.millis (d : Duration) : Nat :=
  d.nanos / 1000000

/-- A multiple of the span, if there is such a span. -/
def Duration.times? (d : Duration) (factor : Nat) : Option Duration :=
  if h : d.nanos * factor < UInt64.size * nanosPerSecond then some ⟨d.nanos * factor, h⟩ else none

def Duration.smaller (d e : Duration) : Duration :=
  if d.nanos ≤ e.nanos then d else e

/-- The power of two, if it fits a word of 32 bits. -/
def powerOfTwo? (n : Nat) : Option Nat :=
  if n < 32 then some (1 <<< n) else none

/-- The bounds of a delay. -/
structure Backoff where
  min : Duration
  max : Duration
deriving DecidableEq

/-- The delay before retry number `attempt`, counted from zero: the least delay doubled so many
times, but at most the greatest. A product that does not fit counts as too great. -/
def Backoff.delay (b : Backoff) (attempt : Nat) : Duration :=
  (((powerOfTwo? attempt).bind b.min.times?).getD b.max).smaller b.max

end LedgerClient
