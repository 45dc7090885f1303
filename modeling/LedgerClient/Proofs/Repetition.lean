import LedgerClient.Execution

namespace LedgerClient

variable {σ : Type}

/-- An execution whose request is left open. Between two executions anything may happen to the
nodes and to the clock, so each has a situation of its own. -/
structure Occasion (σ : Type) where
  client : Client
  world : World σ
  Result : Type
  operation : Operation Result
  situation : Situation σ

def Occasion.run (o : Occasion σ) (r : Request) : Except DispatchError o.Result × Progress σ :=
  o.client.execute o.world o.operation r o.situation

/-- What has become of a request when it was executed on these occasions. -/
def Request.after (r : Request) (occasions : List (Occasion σ)) : Request :=
  occasions.foldl (fun r o => (o.run r).2.request) r

/-- All that is on record of these executions. -/
def Request.record (r : Request) : List (Occasion σ) → List Entry
  | [] => []
  | o :: later => (o.run r).2.journal ++ (o.run r).2.request.record later

end LedgerClient
