import Paywatch.Chain.Amount
import Paywatch.Chain.Block
import Paywatch.Chain.Token
import Paywatch.Data.Record
import Paywatch.Time.Text
import Paywatch.Ulid

/-!
# Chain values in documents

How chains, addresses, amounts, tokens and blocks are written as structured data and
read from it.  Amounts are written as decimal text, since they need not fit into the
numbers of a document; small ones are read as numbers too.
-/

namespace Paywatch

namespace ChainId

def toData (chain : ChainId) : Data := .ofWord chain.number

def ofData? (d : Data) : Option ChainId := d.word?.map ChainId.mk

end ChainId

namespace Address

def toData (a : Address) : Data := .text a.text

def ofData? (d : Data) : Option Address := d.text?.bind fun s => (ofText s).toOption

end Address

namespace Amount

def toData (a : Amount) : Data := .text a.text

def ofData? (d : Data) : Option Amount :=
  match d.text? with
  | some s => (ofText s).toOption
  | none => d.word?.bind fun n => ofNat? n.toNat

end Amount

namespace Token

def toData : Token → Data
  | native chain => .record [("type", .text "native"), ("chain", chain.toData)]
  | erc20 chain contract =>
    .record [("type", .text "erc20"), ("chain", chain.toData),
      ("address", contract.toData)]

def ofData? (d : Data) : Option Token := do
  let (kind, parts) ← d.tagged? "type"
  match kind with
  | "native" =>
    let p ← parts.parts? ["chain"]
    return .native (← p.need "chain" ChainId.ofData?)
  | "erc20" =>
    let p ← parts.parts? ["chain", "address"]
    return .erc20 (← p.need "chain" ChainId.ofData?) (← p.need "address" Address.ofData?)
  | _ => none

end Token

namespace BlockRef

def toData (r : BlockRef) : Data :=
  .record [("height", .ofWord r.height), ("hash", .text r.hash)]

end BlockRef

namespace Block

def toData (b : Block) : Data :=
  .record [("chain", b.chain.toData), ("height", .ofWord b.height),
    ("hash", .text b.hash), ("parent_hash", .text b.parentHash),
    ("timestamp", .int b.timestamp.toInt)]

/-- The hashes are taken as they are. -/
def ofData? (d : Data) : Option Block := do
  let p ← d.parts? ["chain", "height", "hash", "parent_hash", "timestamp"]
  return {
    chain := ← p.need "chain" ChainId.ofData?
    height := ← p.need "height" Data.word?
    hash := ← p.need "hash" Data.text?
    parentHash := ← p.need "parent_hash" Data.text?
    timestamp := ← p.need "timestamp" Data.int64? }

end Block

namespace Instant

def toData (t : Instant) : Data := .text t.text

def ofData? (d : Data) : Option Instant := d.text?.bind fun s => (ofText s).toOption

end Instant

namespace Id

variable {entity : Entity}

def toData (id : Id entity) : Data := .text id.text

def ofData? (d : Data) : Option (Id entity) :=
  d.text?.bind fun s => (Ulid.ofText s).toOption.map Id.mk

end Id

end Paywatch
