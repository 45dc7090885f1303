namespace LedgerClient

/-- The kinds of failure that remote calls have in common. -/
inductive FaultCode
  | ok
  | cancelled
  | unknown
  | invalidArgument
  | deadlineExceeded
  | notFound
  | alreadyExists
  | permissionDenied
  | resourceExhausted
  | failedPrecondition
  | aborted
  | outOfRange
  | unimplemented
  | internal
  | unavailable
  | dataLoss
  | unauthenticated
deriving DecidableEq, Repr

def FaultCode.name : FaultCode → String
  | .ok => "ok"
  | .cancelled => "cancelled"
  | .unknown => "unknown"
  | .invalidArgument => "invalid_argument"
  | .deadlineExceeded => "deadline_exceeded"
  | .notFound => "not_found"
  | .alreadyExists => "already_exists"
  | .permissionDenied => "permission_denied"
  | .resourceExhausted => "resource_exhausted"
  | .failedPrecondition => "failed_precondition"
  | .aborted => "aborted"
  | .outOfRange => "out_of_range"
  | .unimplemented => "unimplemented"
  | .internal => "internal"
  | .unavailable => "unavailable"
  | .dataLoss => "data_loss"
  | .unauthenticated => "unauthenticated"

def FaultCode.all : List FaultCode :=
  [.ok, .cancelled, .unknown, .invalidArgument, .deadlineExceeded, .notFound, .alreadyExists,
    .permissionDenied, .resourceExhausted, .failedPrecondition, .aborted, .outOfRange,
    .unimplemented, .internal, .unavailable, .dataLoss, .unauthenticated]

def FaultCode.ofName? (s : String) : Option FaultCode :=
  FaultCode.all.find? fun c => c.name == s

/-- A failed call, or a failed attempt to open a channel. -/
structure Fault where
  code : FaultCode
  message : String
deriving DecidableEq, Repr

def Fault.text (f : Fault) : String :=
  "rpc error: code = " ++ f.code.name ++ " desc = " ++ f.message

end LedgerClient
