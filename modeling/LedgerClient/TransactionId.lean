import LedgerClient.AccountId
import LedgerClient.WallTime

namespace LedgerClient

/-- The nanoseconds need not be below one second: an id is kept as it was written. -/
structure TransactionId where
  account : AccountId
  seconds : UInt64
  nanos : UInt32
deriving DecidableEq, Repr

/-- The account, the seconds, and the nanoseconds with at least nine digits. -/
def TransactionId.chars (t : TransactionId) : List Char :=
  t.account.chars ++ '@' :: (decimal t.seconds.toNat ++ '.' :: padded 9 t.nanos.toNat)

def TransactionId.text (t : TransactionId) : String :=
  String.ofList t.chars

/-- The id of an account's transaction that is valid from an instant; from the epoch, if the
instant is earlier. -/
def TransactionId.starting (account : AccountId) (start : WallTime) : TransactionId :=
  let n := start.nanos.toNat
  ⟨account, UInt64.ofNat (n / nanosPerSecond), UInt32.ofNat (n % nanosPerSecond)⟩

/-- The instant an id is valid from, if a wall clock can show it. -/
def TransactionId.validStart? (t : TransactionId) : Option WallTime :=
  WallTime.ofNanos? (t.seconds.toNat * nanosPerSecond + t.nanos.toNat : Nat)

/-- What the clock and the dice say when an id is generated. -/
structure IdDraw where
  reading : WallTime
  /-- Milliseconds to go back. -/
  millis : Nat
  /-- Nanoseconds to go back beyond that. -/
  nanos : Nat
  millis_ge : 5000 ≤ millis := by decide
  millis_lt : millis < 8000 := by decide
  nanos_lt : nanos < 1000000 := by decide

/-- Five to eight seconds: a node whose clock is a little behind still accepts the id. -/
def IdDraw.backdate (d : IdDraw) : Nat :=
  d.millis * 1000000 + d.nanos

def TransactionId.generate (account : AccountId) (d : IdDraw) : TransactionId :=
  .starting account ((d.reading.minus? d.backdate).getD .epoch)

end LedgerClient
