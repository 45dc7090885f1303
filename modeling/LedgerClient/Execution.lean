import LedgerClient.Client
import LedgerClient.Operation
import LedgerClient.StreamReset

namespace LedgerClient

/-- What has become of a request and of everything around it, with the steps that led there. -/
structure Progress (σ : Type) where
  request : Request
  situation : Situation σ
  journal : List Entry

def Progress.note (p : Progress σ) (e : Event) : Progress σ :=
  { p with journal := p.journal ++ [.event e] }

/-- The same with nothing on record yet. -/
def Progress.afresh (p : Progress σ) : Progress σ :=
  { p with journal := [] }

/-- What `p` has come to by the later steps that `q` has on record. -/
def Progress.andThen (p q : Progress σ) : Progress σ :=
  { q with journal := p.journal ++ q.journal }

/-- How an attempt ends. -/
inductive Ending (α : Type)
  | settled (result : Except DispatchError α)
  /-- Another attempt may follow; the error counts if none does. -/
  | unsettled (error : DispatchError)

def Progress.fail (p : Progress σ) (attempts : Nat) (e : DispatchError) :
    Except DispatchError α × Progress σ :=
  (.error e, p.note (.failed attempts e.message))

/-- The client sleeps, with `step` on record for the time it took. -/
def Progress.sleep (p : Progress σ) (w : World σ) (nanos : Nat) (step : Nat → Entry) :
    Progress σ :=
  let (took, situation) := p.situation.sleep w nanos
  { p with situation := situation, journal := p.journal ++ [step took] }

/-- The steps before a node is called: it is marked as used, and while its penalty lasts the client
sleeps. -/
def Progress.approach (p : Progress σ) (w : World σ) (attempt : Nat) (node : Node) : Progress σ :=
  let used := { p with situation := p.situation.useNode node.id }
  let p := used.note (.nodeSelected attempt node.id node.address)
  if node.state.isHealthy p.situation.now then p
  else
    let wait := node.state.waitRemaining p.situation.now
    (p.note (.nodeUnhealthy node.id wait)).sleep w wait (.waited node.id wait)

def Progress.advance (p : Progress σ) : Progress σ :=
  { p with request := p.request.advance }

def Progress.acquire (p : Progress σ) (w : World σ) (node : Node) :
    Except Fault Channel × Progress σ :=
  let (outcome, situation, journal) := p.situation.acquire w node
  (outcome, { p with situation := situation, journal := p.journal ++ journal })

def Progress.call (p : Progress σ) (w : World σ) (node : Node) (channel : Channel)
    (message : Message) : Except Fault Answer × Progress σ :=
  let (outcome, took, situation) := p.situation.call w channel message
  let entry := Entry.called p.situation.now (node.holding channel) channel message outcome
  (outcome, { p with situation := situation, journal := p.journal ++ [.passed took, entry] })

def Progress.penalize (p : Progress σ) (node : Node) : Progress σ :=
  let (situation, delay) := p.situation.penalizeNode node
  { p with situation := situation, journal := p.journal ++ [.penalized node.id delay] }

def Progress.reward (p : Progress σ) (node : Node) : Progress σ :=
  { p with situation := p.situation.rewardNode node.id }

/-- What becomes of an attempt at the node that the request points at. -/
inductive Outcome
  /-- There is nothing to send, or no node to send it to. -/
  | unsendable (error : DispatchError)
  | unknownNode (node : AccountId)
  | unopened (node : Node) (fault : Fault)
  | unanswered (node : Node) (message : Message) (fault : Fault)
  | answered (node : Node) (message : Message) (answer : Answer)

/-- Sends the request to the node it points at. From then on it points at the next one. -/
def Progress.contact (p : Progress σ) (w : World σ) (attempt : Nat) : Outcome × Progress σ :=
  match p.request.message with
  | .error e => (.unsendable e, p)
  | .ok message =>
    match p.situation.network.find? message.node with
    | none => (.unknownNode message.node, p)
    | some found =>
      let node := found.use p.situation.now
      match ((p.approach w attempt node).advance).acquire w node with
      | (.error f, p) => (.unopened node f, (p.penalize node).note (.channelFailed node.id f))
      | (.ok channel, p) =>
        match p.call w node channel message with
        | (.error f, p) =>
          let p := p.note (.callFailed node.id f f.isTransient)
          (.unanswered node message f, if f.isTransient then p.penalize node else p)
        | (.ok answer, p) => (.answered node message answer, p.reward node)

/-- Replaces an expired transaction id, if there is an operator, and the request and its ids allow
it. Shows the old id and the new one. -/
def Client.replaceExpired? (c : Client) (w : World σ) (p : Progress σ) :
    Option (TransactionId × TransactionId × Progress σ) :=
  match c.operator?, p.request with
  | some operator, .transaction t =>
    if t.regenerate.getD c.regenerate && !t.ids.locked then
      let (next, situation) := p.situation.generate w operator
      match t.ids.replaceCurrent next with
      | .ok (some previous, ids) =>
        some (previous, next,
          { p with request := .transaction { t with ids := ids }, situation := situation })
      | _ => none
    else none
  | _, _ => none

/-- What follows from an answer. -/
def Client.conclude (c : Client) (w : World σ) (op : Operation α) (policy : Policy) (attempt : Nat)
    (node : AccountId) (message : Message) (answer : Answer) (p : Progress σ) :
    Ending α × Progress σ :=
  let verdict := op.classify p.request answer
  let p := p.note (.classified node answer.precheck verdict)
  let refusal := op.refusal p.request answer
  let stop : Ending α × Progress σ :=
    let (result, p) := p.fail attempt (refusal.afterAttempts attempt policy.attempts)
    (.settled result, p)
  match verdict with
  | .retry =>
    if attempt < policy.attempts then
      let delay := policy.backoff.delay (attempt - 1)
      (.unsettled refusal,
        (p.note (.backoff attempt delay)).sleep w delay.nanos (.delayed delay))
    else (.unsettled refusal, p)
  | .expired =>
    match c.replaceExpired? w p with
    | some (previous, next, p) => (.unsettled refusal, p.note (.regenerated previous next))
    | none => stop
  | .error => stop
  | .finished =>
    (.settled (op.result p.request answer node message), p.note (.finished node attempt))

/-- One attempt, counted from one. -/
def Client.attempt (c : Client) (w : World σ) (op : Operation α) (policy : Policy) (attempt : Nat)
    (p : Progress σ) : Ending α × Progress σ :=
  let stop (p : Progress σ) (e : DispatchError) : Ending α × Progress σ :=
    let (result, p) := p.fail attempt e
    (.settled result, p)
  match p.contact w attempt with
  | (.unsendable e, p) => stop p e
  | (.unknownNode node, p) => stop p (.unknownNode node)
  | (.unopened _ f, p) => (.unsettled (.fault f), p)
  | (.unanswered _ _ f, p) =>
    if f.isTransient then (.unsettled (.fault f), p)
    else stop p ((DispatchError.fault f).afterAttempts attempt policy.attempts)
  | (.answered node message answer, p) =>
    c.conclude w op policy attempt node.id message answer p

/-- The attempts after the first `made`. The steps of each are recorded on their own and joined. -/
def Client.attempts (c : Client) (w : World σ) (op : Operation α) (policy : Policy) :
    (left made : Nat) → (last : DispatchError) → Progress σ → Except DispatchError α × Progress σ
  | 0, _, last, p => p.fail policy.attempts (last.afterAttempts policy.attempts policy.attempts)
  | left + 1, made, _, p =>
    match c.attempt w op policy (made + 1) p.afresh with
    | (.settled result, q) => (result, p.andThen q)
    | (.unsettled error, q) => Client.attempts c w op policy left (made + 1) error (p.andThen q)

/-- Why a request could not be prepared, and what it and all around it are like then. -/
abbrev Unprepared (σ : Type) : Type :=
  DispatchError × Request × Situation σ

/-- Picks the nodes of a request that names none. -/
def Client.chooseNodes (c : Client) (w : World σ) (request : Request) (situation : Situation σ) :
    Except (Unprepared σ) (Request × Situation σ) :=
  if request.nodes.ids.isEmpty then
    match situation.select w c.maxNodes with
    | ([], situation) => .error (.noNodes, request, situation)
    | (ids, situation) => .ok (request.withNodes (.ofList ids), situation)
  else .ok (request, situation)

/-- Generates the first id of a transaction that has none. -/
def Client.chooseId (c : Client) (w : World σ) (request : Request) (situation : Situation σ) :
    Except (Unprepared σ) (Request × Situation σ) :=
  match request with
  | .query _ => .ok (request, situation)
  | .transaction t =>
    if t.ids.current?.isSome then .ok (request, situation)
    else
      match c.operator? with
      | none => .error (.missingTransactionId, request, situation)
      | some operator =>
        let (id, situation) := situation.generate w operator
        match t.ids.push id with
        | .ok ids => .ok (.transaction { t with ids := ids }, situation)
        | .error e => .error (e, request, situation)

/-- Fills in what a request leaves to the client. -/
def Client.prepare (c : Client) (w : World σ) (request : Request) (situation : Situation σ) :
    Except (Unprepared σ) (Request × Situation σ) := do
  let (request, situation) ← c.chooseNodes w request situation
  c.chooseId w request situation

/-- Prepares a request and makes the attempts it is allowed. -/
def Client.run (c : Client) (w : World σ) (op : Operation α) (request : Request)
    (situation : Situation σ) : Except DispatchError α × Progress σ :=
  match c.prepare w request situation with
  | .error (e, request, situation) => Progress.fail ⟨request, situation, []⟩ 0 e
  | .ok (prepared, situation) =>
    let policy := c.policy prepared.limits
    c.attempts w op policy policy.attempts 0 .noAttempts ⟨prepared, situation, []⟩

/-- Carries a request out. Nodes that the client picked itself are forgotten afterwards, so that
the next execution picks by the health of the nodes then. -/
def Client.execute (c : Client) (w : World σ) (op : Operation α) (request : Request)
    (situation : Situation σ) : Except DispatchError α × Progress σ :=
  let (result, p) := c.run w op request situation
  if request.nodes.ids.isEmpty then
    (result, { p with request := p.request.withNodes (.ofList []) })
  else (result, p)

/-- Executes a query; the request itself does not change. -/
def Client.query (c : Client) (w : World σ) (request : QueryRequest) (situation : Situation σ) :
    Except DispatchError QueryOutcome × Progress σ :=
  c.execute w queryOperation (.query request) situation

/-- Submits a transaction. -/
def Client.submit (c : Client) (w : World σ) (request : TransactionRequest)
    (situation : Situation σ) : Except DispatchError Submission × Progress σ :=
  c.execute w submitOperation (.transaction request) situation

end LedgerClient
