import LedgerClient.Backoff
import LedgerClient.NodeAddress
import LedgerClient.AccountId

namespace LedgerClient

/-- An open way to a node. -/
structure Channel where
  address : NodeAddress
  serial : Nat
deriving DecidableEq

/-- Times are nanoseconds on a clock that never goes back. -/
structure NodeState where
  /-- How often the next penalty has been doubled. -/
  level : Nat
  /-- The end of the last penalty. -/
  badUntil : Option Nat
  lastUsed : Option Nat
  /-- How often the node was used. After the greatest word of 64 bits the count begins anew. -/
  useCount : UInt64
  channel : Option Channel
deriving DecidableEq

def NodeState.fresh : NodeState :=
  ⟨0, none, none, 0, none⟩

def NodeState.uses (s : NodeState) : Nat :=
  s.useCount.toNat

def NodeState.isHealthy (s : NodeState) (now : Nat) : Bool :=
  s.badUntil.all (· ≤ now)

/-- The time until the end of the penalty. -/
def NodeState.waitRemaining (s : NodeState) (now : Nat) : Nat :=
  s.badUntil.getD 0 - now

/-- The penalty for the next failure. -/
def NodeState.currentDelay (s : NodeState) (bounds : Backoff) : Duration :=
  bounds.delay s.level

/-- The last time that the clock can show. Its seconds are words of 64 bits with a sign. -/
def lastInstant : Nat :=
  UInt64.size / 2 * nanosPerSecond - 1

/-- Begins a penalty, which doubles with every failure, if the clock can show its end. -/
def NodeState.penalize? (s : NodeState) (bounds : Backoff) (now : Nat) : Option NodeState :=
  let delay := s.currentDelay bounds
  if now + delay.nanos ≤ lastInstant then
    some { s with
      badUntil := some (now + delay.nanos)
      level := if delay.nanos < bounds.max.nanos then s.level + 1 else s.level }
  else none

/-- A penalty whose end the clock cannot show leaves the node as it was. -/
def NodeState.penalize (s : NodeState) (bounds : Backoff) (now : Nat) : NodeState :=
  (s.penalize? bounds now).getD s

theorem NodeState.penalize_of_le {s : NodeState} {bounds : Backoff} {now : Nat}
    (h : now + (s.currentDelay bounds).nanos ≤ lastInstant) : s.penalize bounds now = { s with
      badUntil := some (now + (s.currentDelay bounds).nanos)
      level := if (s.currentDelay bounds).nanos < bounds.max.nanos then s.level + 1
        else s.level } := by
  simp [NodeState.penalize, NodeState.penalize?, h]

theorem NodeState.penalize_of_lt {s : NodeState} {bounds : Backoff} {now : Nat}
    (h : lastInstant < now + (s.currentDelay bounds).nanos) : s.penalize bounds now = s := by
  simp [NodeState.penalize, NodeState.penalize?, Nat.not_le.mpr h]

/-- A success halves the next penalty. -/
def NodeState.reward (s : NodeState) : NodeState :=
  { s with level := s.level - 1 }

def NodeState.use (s : NodeState) (now : Nat) : NodeState :=
  { s with useCount := s.useCount + 1, lastUsed := some now }

@[simp]
theorem NodeState.channel_penalize (s : NodeState) (bounds : Backoff) (now : Nat) :
    (s.penalize bounds now).channel = s.channel := by
  rw [NodeState.penalize, NodeState.penalize?]
  split <;> rfl

@[simp]
theorem NodeState.useCount_penalize (s : NodeState) (bounds : Backoff) (now : Nat) :
    (s.penalize bounds now).useCount = s.useCount := by
  rw [NodeState.penalize, NodeState.penalize?]
  split <;> rfl

structure Node where
  id : AccountId
  address : NodeAddress
  state : NodeState
deriving DecidableEq

def Node.fresh (id : AccountId) (address : NodeAddress) : Node :=
  ⟨id, address, .fresh⟩

def Node.use (node : Node) (now : Nat) : Node :=
  { node with state := node.state.use now }

def Node.holding (node : Node) (channel : Channel) : Node :=
  { node with state := { node.state with channel := some channel } }

end LedgerClient
