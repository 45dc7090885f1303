import LedgerClient.Json.Record
import LedgerClient.TransactionId

namespace LedgerClient

def AccountId.json (a : AccountId) : Json :=
  .text a.text

def AccountId.ofDocument? (d : Document) : Option AccountId :=
  d.text?.bind fun s => (AccountId.parse s).toOption

def TransactionId.json (t : TransactionId) : Json :=
  .record [("account_id", t.account.json), ("valid_start_seconds", .natural t.seconds),
    ("valid_start_nanos", .natural t.nanos.toUInt64)]

def TransactionId.ofDocument? (d : Document) : Option TransactionId :=
  match d.fields? ["account_id", "valid_start_seconds", "valid_start_nanos"] false with
  | some [some account, some seconds, some nanos] => do
    return ⟨← AccountId.ofDocument? account, ← seconds.uint64?, ← nanos.uint32?⟩
  | _ => none

end LedgerClient
