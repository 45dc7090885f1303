import LedgerClient.Request
import LedgerClient.World

namespace LedgerClient

structure Client where
  /-- The account that new transaction ids are generated for. -/
  configuredOperator : Option AccountId
  /-- A limit for all requests, whatever they set themselves. -/
  maxAttempts : Option UInt32
  backoff : Backoff
  /-- Whether expired transaction ids are replaced, if the request does not say. -/
  regenerate : Bool
  /-- How many nodes are picked for a request that names none; zero stands for all. -/
  maxNodes : UInt64
deriving DecidableEq

def Client.default : Client where
  configuredOperator := none
  maxAttempts := none
  backoff := ⟨.ofMillis 250, .ofMillis 8000⟩
  regenerate := true
  maxNodes := 0

/-- The bounds of node penalties that a network has if nothing else is said. -/
def defaultPenalty : Backoff :=
  ⟨.ofMillis 8000, .ofMillis 3600000⟩

/-- The operator, unless its id is the one that stands for none. -/
def Client.operator? (c : Client) : Option AccountId :=
  c.configuredOperator.filter fun id => !id.isZero

/-- The bounds of one execution. -/
structure Policy where
  attempts : Nat
  backoff : Backoff
deriving DecidableEq

/-- The limit of a request when neither it nor the client sets one. -/
def defaultAttempts : UInt32 := 10

/-- The client's limit wins over the request's, the request's delays over the client's. At least
one attempt is made. -/
def Client.policy (c : Client) (limits : Limits) : Policy where
  attempts := max 1 ((c.maxAttempts.or limits.attempts).getD defaultAttempts).toNat
  backoff := ⟨limits.minDelay.getD c.backoff.min, limits.maxDelay.getD c.backoff.max⟩

end LedgerClient
