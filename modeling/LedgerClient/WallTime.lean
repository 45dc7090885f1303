namespace LedgerClient

abbrev nanosPerSecond : Nat := 1000000000

/-- An instant whose whole seconds from the epoch fit a signed word of 64 bits. -/
structure WallTime where
  nanos : Int
  lower : -(0x8000000000000000 * nanosPerSecond) ≤ nanos
  upper : nanos < 0x8000000000000000 * nanosPerSecond
deriving DecidableEq

/-- The instant so many nanoseconds from the epoch, if it can be written down. -/
def WallTime.ofNanos? (n : Int) : Option WallTime :=
  if h : -(0x8000000000000000 * nanosPerSecond) ≤ n ∧ n < 0x8000000000000000 * nanosPerSecond then
    some ⟨n, h.1, h.2⟩
  else none

def WallTime.epoch : WallTime :=
  ⟨0, by decide, by decide⟩

/-- The instant so many nanoseconds earlier. -/
def WallTime.minus? (t : WallTime) (n : Nat) : Option WallTime :=
  WallTime.ofNanos? (t.nanos - n)

end LedgerClient
