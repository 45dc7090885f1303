import LedgerClient.Fault
import LedgerClient.Frame.Request

namespace LedgerClient

def Precheck.json (p : Precheck) : Json :=
  .text p.name

def Precheck.ofDocument? (d : Document) : Option Precheck :=
  d.tag?.map Precheck.ofName

def Fault.json (f : Fault) : Json :=
  .record [("code", .text f.code.name), ("message", .text f.message)]

def Fault.ofDocument? (d : Document) : Option Fault :=
  match d.fields? ["code", "message"] false with
  | some [some code, some message] => do
    return ⟨← FaultCode.ofName? (← code.tag?), ← message.text?⟩
  | _ => none

def QueryAnswer.json (a : QueryAnswer) : Json :=
  .record [("precheck", a.precheck.json), ("cost", .natural a.cost), ("body", a.body.json)]

/-- The cost is zero and the body is `null` if they are left out. -/
def QueryAnswer.ofDocument? (d : Document) : Option QueryAnswer :=
  match d.fields? ["precheck", "cost", "body"] false with
  | some [some precheck, cost, body] => do
    return ⟨← Precheck.ofDocument? precheck, ← fieldOr 0 Document.uint64? cost,
      ← fieldOr default (Body.read? bodyRoom) body⟩
  | _ => none

def SubmitAnswer.json (a : SubmitAnswer) : Json :=
  .record [("precheck", a.precheck.json), ("cost", .natural a.cost)]

def SubmitAnswer.ofDocument? (d : Document) : Option SubmitAnswer :=
  match d.fields? ["precheck", "cost"] false with
  | some [some precheck, cost] => do
    return ⟨← Precheck.ofDocument? precheck, ← fieldOr 0 Document.uint64? cost⟩
  | _ => none

/-- A reply as a record with one member. -/
def replyFrame (answer : α → Json) : Except Fault α → Json
  | .ok a => .record [("ok", answer a)]
  | .error f => .record [("error", f.json)]

def ofReplyFrame? (answer : Document → Option α) : Document → Option (Except Fault α)
  | .record [(some "ok", d)] => (answer d).map .ok
  | .record [(some "error", d)] => (Fault.ofDocument? d).map .error
  | _ => none

def QueryAnswer.encode (reply : Except Fault QueryAnswer) : String :=
  (replyFrame QueryAnswer.json reply).print

def QueryAnswer.decode? (text : String) : Option (Except Fault QueryAnswer) :=
  (Document.parse? text.toList).bind (ofReplyFrame? QueryAnswer.ofDocument?)

def SubmitAnswer.encode (reply : Except Fault SubmitAnswer) : String :=
  (replyFrame SubmitAnswer.json reply).print

def SubmitAnswer.decode? (text : String) : Option (Except Fault SubmitAnswer) :=
  (Document.parse? text.toList).bind (ofReplyFrame? SubmitAnswer.ofDocument?)

end LedgerClient
