import LedgerClient.Event
import LedgerClient.Network

namespace LedgerClient

/-- What answers a client: the nodes, the timer, chance and the wall clock. Whatever takes time says
how many nanoseconds it took. -/
structure World (σ : Type) where
  connect : NodeAddress → σ → Except Fault Channel × Nat × σ
  query : Channel → QueryMessage → σ → Except Fault QueryAnswer × Nat × σ
  submit : Channel → TransactionMessage → σ → Except Fault SubmitAnswer × Nat × σ
  /-- How long a sleep takes that begins at `now` and is meant to take `nanos`. -/
  sleep : (now nanos : Nat) → σ → Nat × σ
  shuffle : List AccountId → σ → List AccountId × σ
  draw : σ → IdDraw × σ
  perm_shuffle : ∀ ids s, (shuffle ids s).1.Perm ids

/-- The state of the nodes as the client knows it, the time, and the state of the world. -/
structure Situation (σ : Type) where
  network : Network
  /-- Nanoseconds, which pass while the client sleeps or waits for a node. -/
  now : Nat
  world : σ

def Situation.elapse (s : Situation σ) (nanos : Nat) : Situation σ :=
  { s with now := s.now + nanos }

/-- The client sleeps; shows how long that took. -/
def Situation.sleep (s : Situation σ) (w : World σ) (nanos : Nat) : Nat × Situation σ :=
  let (took, world) := w.sleep s.now nanos s.world
  (took, { s with world := world }.elapse took)

def Situation.update (s : Situation σ) (id : AccountId) (f : NodeState → NodeState) :
    Situation σ :=
  { s with network := s.network.update id f }

def Situation.useNode (s : Situation σ) (id : AccountId) : Situation σ :=
  s.update id fun state => state.use s.now

def Situation.rewardNode (s : Situation σ) (id : AccountId) : Situation σ :=
  s.update id NodeState.reward

/-- Penalizes a node; shows the penalty. -/
def Situation.penalizeNode (s : Situation σ) (node : Node) : Situation σ × Duration :=
  (s.update node.id fun state => state.penalize s.network.bounds s.now,
    node.state.currentDelay s.network.bounds)

/-- The channel of a node, which is opened if it is not open. -/
def Situation.acquire (s : Situation σ) (w : World σ) (node : Node) :
    Except Fault Channel × Situation σ × List Entry :=
  match node.state.channel with
  | some channel => (.ok channel, s, [.acquired s.now node])
  | none =>
    let (outcome, took, world) := w.connect node.address s.world
    let s' := { s with world := world }.elapse took
    let journal :=
      [.acquired s.now node, .passed took, .connected node.id node.address outcome]
    match outcome with
    | .ok channel =>
      (.ok channel, s'.update node.id fun state => { state with channel := some channel }, journal)
    | .error f => (.error f, s', journal)

/-- Sends a message over a channel; shows how long it took. -/
def Situation.call (s : Situation σ) (w : World σ) (channel : Channel) :
    Message → Except Fault Answer × Nat × Situation σ
  | .query m =>
    let (outcome, took, world) := w.query channel m s.world
    (outcome.map Answer.query, took, { s with world := world }.elapse took)
  | .transaction m =>
    let (outcome, took, world) := w.submit channel m s.world
    (outcome.map Answer.submit, took, { s with world := world }.elapse took)

/-- Candidates in an order left to chance, at most `max` of them. -/
def Situation.select (s : Situation σ) (w : World σ) (max : UInt64) :
    List AccountId × Situation σ :=
  let (ids, world) := w.shuffle (s.network.candidates s.now) s.world
  (atMost max ids, { s with world := world })

/-- A new transaction id of an account. -/
def Situation.generate (s : Situation σ) (w : World σ) (account : AccountId) :
    TransactionId × Situation σ :=
  let (draw, world) := w.draw s.world
  (.generate account draw, { s with world := world })

end LedgerClient
