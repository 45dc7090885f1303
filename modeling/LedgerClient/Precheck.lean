namespace LedgerClient

/-- A code of the ledger. All codes that no rule tells apart are `unknown`. -/
inductive Precheck
  | ok
  | busy
  | platformNotActive
  | platformTransactionNotCreated
  | transactionExpired
  | invalidTransaction
  | invalidTransactionStart
  | invalidSignature
  | insufficientPayerBalance
  | insufficientTxFee
  | invalidNodeAccount
  | duplicateTransaction
  | payerAccountNotFound
  | invalidAccountId
  | notSupported
  | unknown
deriving DecidableEq, Repr

def Precheck.name : Precheck → String
  | .ok => "OK"
  | .busy => "BUSY"
  | .platformNotActive => "PLATFORM_NOT_ACTIVE"
  | .platformTransactionNotCreated => "PLATFORM_TRANSACTION_NOT_CREATED"
  | .transactionExpired => "TRANSACTION_EXPIRED"
  | .invalidTransaction => "INVALID_TRANSACTION"
  | .invalidTransactionStart => "INVALID_TRANSACTION_START"
  | .invalidSignature => "INVALID_SIGNATURE"
  | .insufficientPayerBalance => "INSUFFICIENT_PAYER_BALANCE"
  | .insufficientTxFee => "INSUFFICIENT_TX_FEE"
  | .invalidNodeAccount => "INVALID_NODE_ACCOUNT"
  | .duplicateTransaction => "DUPLICATE_TRANSACTION"
  | .payerAccountNotFound => "PAYER_ACCOUNT_NOT_FOUND"
  | .invalidAccountId => "INVALID_ACCOUNT_ID"
  | .notSupported => "NOT_SUPPORTED"
  | .unknown => "UNKNOWN"

def Precheck.all : List Precheck :=
  [.ok, .busy, .platformNotActive, .platformTransactionNotCreated, .transactionExpired,
    .invalidTransaction, .invalidTransactionStart, .invalidSignature, .insufficientPayerBalance,
    .insufficientTxFee, .invalidNodeAccount, .duplicateTransaction, .payerAccountNotFound,
    .invalidAccountId, .notSupported, .unknown]

/-- Nodes may send codes that are not known here. -/
def Precheck.ofName (s : String) : Precheck :=
  (Precheck.all.find? fun p => p.name == s).getD .unknown

/-- What an answer asks of the client. -/
inductive Verdict
  /-- Try the next node, after a delay. -/
  | retry
  /-- Take the answer. -/
  | finished
  /-- The node refuses the request: stop. -/
  | error
  /-- The transaction id is too old: replace it if that is allowed. -/
  | expired
deriving DecidableEq, Repr

def Verdict.name : Verdict → String
  | .retry => "retry"
  | .finished => "finished"
  | .error => "error"
  | .expired => "expired"

def Precheck.queryVerdict : Precheck → Verdict
  | .busy | .platformNotActive => .retry
  | .ok => .finished
  | _ => .error

def Precheck.transactionVerdict : Precheck → Verdict
  | .busy | .platformTransactionNotCreated | .platformNotActive => .retry
  | .ok => .finished
  | .transactionExpired => .expired
  | _ => .error

end LedgerClient
