import Paywatch.Chain.Height
import Paywatch.Chain.Quantity
import Paywatch.Text.Lowercase

/-!
# Blocks

A block is known by its height and its hash, and points to its parent by hash. Hashes
are kept in lower case behind `0x`.
-/

namespace Paywatch

/-- A hash in its normal form: `0x` in front, lower case behind. -/
def normalHash (s : String) : String :=
  let body := match s.toList with
    | '0' :: 'x' :: rest => rest
    | '0' :: 'X' :: rest => rest
    | cs => cs
  String.ofList ('0' :: 'x' :: Text.lowerChars body)

/-- The first ten bytes of a hash, or all of it if they are not whole characters. -/
def shortHash (s : String) : String :=
  match Text.takeBytes? 10 s.toList with
  | some head => String.ofList head
  | none => s

/-- Height and hash of a block. -/
structure BlockRef where
  height : Height
  hash : String
deriving DecidableEq, Repr, Inhabited

namespace BlockRef

def ofRaw (height : Height) (hash : String) : BlockRef := ⟨height, normalHash hash⟩

def text (r : BlockRef) : String :=
  "#" ++ Text.decimalWord r.height ++ " (" ++ shortHash r.hash ++ ")"

end BlockRef

structure Block where
  chain : ChainId
  height : Height
  hash : String
  parentHash : String
  /-- Seconds since 1970. -/
  timestamp : Int64
deriving DecidableEq, Repr

namespace Block

def ofRaw (chain : ChainId) (height : Height) (hash parentHash : String)
    (timestamp : Int64) : Block :=
  ⟨chain, height, normalHash hash, normalHash parentHash, timestamp⟩

def ref (b : Block) : BlockRef := ⟨b.height, b.hash⟩

/-- The block stands directly on `parent`. It is asked only where there is a height
after the parent. -/
def extends? (b : Block) (parent : BlockRef) : Bool :=
  b.height == parent.height + 1 && b.parentHash == parent.hash

end Block

end Paywatch
