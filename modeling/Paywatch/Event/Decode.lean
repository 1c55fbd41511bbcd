import Paywatch.Event.Payload
import Paywatch.Keccak
import Paywatch.Node.Basic

/-!
# Reading logs and transactions

A log is an event of the kind that its first topic names. Topics are the
Keccak hashes of event signatures. Amounts are 32-byte words; one above 128
bits is refused, never cut.
-/

namespace Paywatch

/-- Why a log of a watched target is not used. -/
inductive DecodeError where
  | topicCount (expected actual : Nat)
  | shortData (expected actual : Nat)
  | amountOverflow (text : String)
  | malformed (reason : String)
deriving DecidableEq, Repr

namespace DecodeError

def message : DecodeError → String
  | topicCount expected actual =>
    "Expected " ++ Text.decimal expected ++ " topics, got " ++ Text.decimal actual
  | shortData expected actual =>
    "Data too short: expected " ++ Text.decimal expected ++ " bytes, got " ++
      Text.decimal actual
  | amountOverflow text => "Amount overflow: " ++ text
  | malformed reason => "Malformed field: " ++ reason

def ofChainData : ChainDataError → DecodeError
  | .overflow text => .amountOverflow text
  | e => .malformed e.message

end DecodeError

namespace EventKind

/-- The topic of a signature such as `Transfer(address,address,uint256)`. -/
def topicOfSignature (signature : String) : String :=
  String.ofList ('0' :: 'x' :: (Keccak.hash signature.toUTF8.toList).flatMap
    fun b => Text.hexWidth 2 b.toNat)

/-- The first topic of logs of a kind. Coins move without a log. -/
def topic : EventKind → Option String
  | erc20Transfer =>
    some "0xddf252ad1be2c89b69c2b068fc378daa952ba7f163c4a11628f55a4df523b3ef"
  | channelDeposit =>
    some "0x2b55547a3b586ab51f65ee9ce4927fa6d25191388299988e89e059a02f9dd445"
  | channelWithdraw =>
    some "0x98ed0357b86b313fa9f968de5c9d2bcf591432355b34aa1ab7e3e9e92f428408"
  | nativeTransfer => none

/-- The kind of logs with this first topic, in either letter case. -/
def ofTopic (topic0 : String) : Option EventKind :=
  let topic0 := Text.lower topic0
  [erc20Transfer, channelDeposit, channelWithdraw].find? fun kind =>
    kind.topic == some topic0

end EventKind

namespace Log

/-- The first 32-byte word of a log's data as an amount. -/
def firstWord (data : String) : Except DecodeError Amount :=
  let body := Quantity.digits data
  if Text.byteCount body < 64 then .error (.shortData 32 (Text.byteCount body / 2))
  else
    match Text.takeBytes? 64 body with
    | some word =>
      if word.all Text.isAscii then
        (Amount.ofQuantity (String.ofList word)).mapError DecodeError.ofChainData
      else .error (.malformed "non-hex data word 0")
    | none => .error (.malformed "non-hex data word 0")

/-- The address in a topic. -/
def topicAddress (topic : String) : Except DecodeError Address :=
  (Address.ofTopic topic).mapError DecodeError.ofChainData

/-- Reads a log as an event of a kind: three topics, and an amount in the data. -/
def decode (kind : EventKind) (log : Log) : Except DecodeError Payload :=
  match kind with
  | .nativeTransfer => .error (.malformed "native transfers are not carried by logs")
  | kind =>
    match log.topics with
    | [_, first, second] => do
      match kind with
      | .channelDeposit =>
        let participant ← topicAddress second
        return .channelDeposit (Text.lower first) participant (← firstWord log.data)
      | .channelWithdraw =>
        let participant ← topicAddress second
        return .channelWithdraw (Text.lower first) participant (← firstWord log.data)
      | _ =>
        let sender ← topicAddress first
        let receiver ← topicAddress second
        return .erc20Transfer sender receiver (← firstWord log.data)
    | topics => .error (.topicCount 3 topics.length)

end Log

namespace Tx

/-- Reads a transaction as a transfer of coins; `none` if it has no
receiver or moves nothing. -/
def decode (tx : Tx) : Except DecodeError (Option Payload) :=
  match tx.receiver with
  | none => .ok none
  | some receiver => do
    let value ← (Amount.ofQuantity tx.value).mapError DecodeError.ofChainData
    if value.isZero then return none
    match tx.sender with
    | none => throw (.malformed ("tx " ++ tx.hash ++ " has no sender"))
    | some sender =>
      let sender ← (Address.ofText sender).mapError DecodeError.ofChainData
      let receiver ← (Address.ofText receiver).mapError DecodeError.ofChainData
      return some (.nativeTransfer sender receiver value)

/-- The place of a transfer of coins among the logs of its block: behind all of them. -/
def logIndex (index : UInt64) : UInt64 := index ||| 0x8000000000000000

end Tx

end Paywatch
