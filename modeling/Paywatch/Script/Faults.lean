import Paywatch.Engine.Basic
import Paywatch.Script.Fields

/-!
# Faults

How the errors of the library are written: the name of the cause, the message,
and what callers decide by.
-/

namespace Paywatch.Script

def errorData (name message : String) (more : List (String × Data)) : Data :=
  .record ([("error", .text name), ("message", .text message)] ++ more)

/-- The answer to a script in which the program panics. -/
def panicked : Data := errorData "panic" Height.panicMessage []

/-- The answers to the steps of a script; a panic takes the place of all of them. -/
def unlessPanic (answers : List Data) : Answer Data :=
  if answers.any fun d => text d "error" == "panic" then .error panicked
    else .ok (.list answers)

def chainDataError (e : ChainDataError) : Data :=
  let name := match e with
    | .invalidAddress _ => "InvalidAddress"
    | .invalidQuantity _ => "InvalidQuantity"
    | .overflow _ => "Overflow"
  errorData name e.message []

def ulidError (e : Ulid.ReadError) : Data :=
  let name := match e with
    | .invalidLength => "InvalidLength"
    | .invalidChar => "InvalidChar"
  errorData name e.message []

def decodeError (e : DecodeError) : Data :=
  let name := match e with
    | .topicCount .. => "TopicCount"
    | .shortData .. => "ShortData"
    | .amountOverflow _ => "AmountOverflow"
    | .malformed _ => "Malformed"
  errorData name e.message []

def transferError (e : TransferError) : Data :=
  let name := match e with
    | .unmappedEventKind .. => "UnmappedEventKind"
    | .invalidTransition .. => "InvalidTransition"
    | .alreadyConfirmed _ => "AlreadyConfirmed"
    | .alreadyExecuted _ => "AlreadyExecuted"
    | .invalidAmount => "InvalidAmount"
  errorData name e.message [("code", .text e.code)]

def reconcileError (e : ReconcileError) : Data :=
  let name := match e with
    | .duplicateRouteConsumption .. => "DuplicateRouteConsumption"
    | .orderNotFound _ => "OrderNotFound"
    | .orderNotOpen .. => "OrderNotOpen"
    | .tokenMismatch .. => "TokenMismatch"
    | .invalidRoute _ => "InvalidRoute"
    | .invalidAmount => "InvalidAmount"
  errorData name e.message [("fatal", .bool e.isFatal)]

def ledgerError (e : LedgerError) : Data :=
  let name := match e with
    | .leaseLost _ => "LeaseLost"
    | .claimConflict _ => "ClaimConflict"
    | .transferConflict _ => "TransferConflict"
    | .notFound .. => "NotFound"
    | .corrupt _ => "Corrupt"
    | .watermarkMismatch .. => "WatermarkMismatch"
    | .overflow => "panic"
  errorData name e.message [("conflict", .bool e.isConflict)]

def configError (e : ConfigError) : Data :=
  let name := match e with
    | .unreadable => "Io"
    | .malformed => "Yaml"
    | .invalid _ => "Invalid"
  match e.message with
  | some message => errorData name message []
  | none => fault name

def paymentError (e : PaymentError) : Data :=
  let name := match e with
    | .malformed _ => "Decode"
    | .zeroAmount => "ZeroAmount"
  errorData name e.message []

/-- Turns the errors of the library into answers. -/
def providerError (e : ProviderError) : Data :=
  let name := match e with
    | .rpcConnection _ => "RpcConnection"
    | .rpc .. => "Rpc"
    | .timeout _ => "Timeout"
    | .blockNotFound _ => "BlockNotFound"
    | .invalidResponse _ => "InvalidResponse"
    | .unavailable .. => "Unavailable"
  errorData name e.message []

def trackerError (e : TrackerError) : Data :=
  let name := match e with
    | .provider _ => "Provider"
    | .reorgTooDeep .. => "ReorgTooDeep"
    | .inconsistentBranch _ => "InconsistentBranch"
    | .overflow => "panic"
  errorData name e.message [("transient", .bool e.isTransient)]

def workerError (e : WorkerError) : Data :=
  let name := match e with
    | .ledger .overflow => "panic"
    | .tracker .overflow => "panic"
    | .ledger _ => "Store"
    | .tracker _ => "Tracker"
    | .extract _ => "Extract"
    | .reconcile _ => "Reconcile"
    | .halted .. => "Halted"
    | .commitConflict .. => "CommitConflict"
  errorData name e.message
    [("transient", .bool e.isTransient), ("lease_lost", .bool e.isLeaseLost)]

def settleError (e : SettleError) : Data :=
  let name := match e with
    | .ledger _ => "Store"
    | .reconcile _ => "Reconcile"
    | .conflict _ => "Conflict"
  errorData name e.message []

def raidenError (e : RaidenError) : Data :=
  match e with
  | .feed (.http _) => fault "Http"
  | .feed (.status _ code) => .record [("error", .text "Status"), ("status", .ofNat code)]
  | .payment e => paymentError e
  | .settle _ => errorData "Settle" e.message []

def engineError (e : EngineError) : Data :=
  let caused (name : String) (cause : Data) : Data :=
    .record [("error", .text name), ("cause", cause)]
  match e with
  | .config e => caused "Config" (configError e)
  | .ledger e => caused "Store" (ledgerError e)
  | .reconcile e => caused "Reconcile" (reconcileError e)
  | .transfer e => caused "Transfer" (transferError e)
  | .settle e => caused "Settle" (settleError e)
  | .raiden e => caused "Raiden" (raidenError e)
  | .unknownChain _ => errorData "UnknownChain" e.message []

end Paywatch.Script
