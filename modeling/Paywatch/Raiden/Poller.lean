import Paywatch.Matching.Settlement
import Paywatch.Settings.Basic

/-!
# Recording Raiden payments

The history of a Raiden node is read token by token from where the last reading ended.
Every successful payment is recorded once and settled at once. If a payment cannot be
settled the next reading begins with it.
-/

namespace Paywatch

/-- Why payments were not recorded. -/
inductive RaidenError where
  | feed (e : FeedError)
  | payment (e : PaymentError)
  | settle (e : SettleError)
deriving DecidableEq, Repr

namespace RaidenError

def message : RaidenError → String
  | feed e => e.message
  | payment e => e.message
  | settle e => "Settlement failed: " ++ e.message

end RaidenError

namespace Payment

/-- Records and settles a payment; `none` if it was recorded before. -/
def ingest (rules : MatchingRules) (p : Payment) :
    Flow (Except RaidenError (Option Transfer)) := do
  match p.transfer (← Flow.ask .stamp) with
  | .error e => return .error (.payment e)
  | .ok t =>
    match ← Flow.ledger (.transferByKey t.dedupeKey) with
    | some _ => return .ok none
    | none =>
      match ← rules.settle p.chain [t] [] with
      | .error e => return .error (.settle e)
      | .ok _ => return .ok (some t)

end Payment

/-- Reads the history of one node. -/
structure Poller where
  chain : ChainId
  node : Address
  url : String
  tokens : List Address
  /-- Nanoseconds between two readings. -/
  interval : Nat
  rules : MatchingRules
  /-- How many entries of the history of each token are done with. -/
  offsets : Table Address Nat

namespace Poller

/-- The web address of a node without slashes at its end. -/
def baseUrl (url : String) : String :=
  String.ofList (url.toList.reverse.dropWhile (· == '/')).reverse

/-- The poller of a configured node. -/
def ofSettings (rules : MatchingRules) (s : RaidenNodeSettings) :
    Except PaymentError Poller := do
  let read (text : String) : Except PaymentError Address :=
    (Address.ofText text).mapError fun e => .malformed e.message
  return {
    chain := s.chain
    node := ← read s.address
    url := baseUrl s.url
    tokens := ← s.tokens.mapM read
    interval := s.pollIntervalMillis.toNat * nanosPerMilli
    rules
    offsets := .empty }

def offset (p : Poller) (token : Address) : Nat := (p.offsets.get? token).getD 0

/-- Records the payments among entries; on failure gives the number of entries before
the one that failed. Entries that are no payments, or of nothing, are passed over. -/
def ingestEach (p : Poller) (token : Address) (done recorded : Nat) :
    List PaymentEvent → Flow (Except (Nat × RaidenError) Nat)
  | [] => pure (.ok recorded)
  | e :: rest => do
    match Payment.ofEvent p.chain p.node (.erc20 p.chain token) e with
    | .error _ => ingestEach p token (done + 1) recorded rest
    | .ok none => ingestEach p token (done + 1) recorded rest
    | .ok (some payment) =>
      match ← payment.ingest p.rules with
      | .ok (some _) => ingestEach p token (done + 1) (recorded + 1) rest
      | .ok none => ingestEach p token (done + 1) recorded rest
      | .error (.payment .zeroAmount) => ingestEach p token (done + 1) recorded rest
      | .error err => return .error (done, err)

/-- Reads and records what is new for each of these tokens. -/
def pollTokens (p : Poller) (recorded : Nat) :
    List Address → Flow (Poller × Except RaidenError Nat)
  | [] => pure (p, .ok recorded)
  | token :: rest => do
    let offset := p.offset token
    match ← Flow.ask (.payments p.url token offset) with
    | .error e => return (p, .error (.feed e))
    | .ok events =>
      match ← p.ingestEach token 0 recorded events with
      | .error (done, e) =>
        return ({ p with offsets := p.offsets.insert token (offset + done) }, .error e)
      | .ok recorded =>
        pollTokens { p with
          offsets := p.offsets.insert token (offset + events.length) } recorded rest

/-- Reads and records what is new; tells how many transfers it recorded. -/
def poll (p : Poller) : Flow (Poller × Except RaidenError Nat) := p.pollTokens 0 p.tokens

/-- One reading and the rest after it; `none` at the end. Failures wait
for the next reading. -/
def turn (p : Poller) : Flow (Option Poller) := do
  if ← Flow.ask .stopRequested then return none
  let (p, _) ← p.poll
  Flow.ask (.rest p.interval)
  return some p

end Poller

end Paywatch
