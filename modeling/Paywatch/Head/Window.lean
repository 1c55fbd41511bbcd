import Paywatch.Chain.Block
import Paywatch.Sorting

/-!
# Windows of accepted blocks

The newest accepted blocks of a chain without gaps, oldest first. A block that does not
follow the last one starts the window anew; a full window gives up its oldest block.
-/

namespace Paywatch

structure BlockWindow where
  blocks : List BlockRef
  capacity : Nat
  capacity_pos : 0 < capacity
deriving DecidableEq

namespace BlockWindow

/-- An empty window; it has room for one block at least. -/
def ofCapacity (n : Nat) : BlockWindow := ⟨[], max n 1, by omega⟩

instance : Inhabited BlockWindow := ⟨ofCapacity 1⟩

def tip? (w : BlockWindow) : Option BlockRef := w.blocks.getLast?

def lowest? (w : BlockWindow) : Option Height := w.blocks.head?.map (·.height)

def size (w : BlockWindow) : Nat := w.blocks.length

/-- The hash of the block at a height. The place of the block is its
distance from the lowest. -/
def hashAt? (w : BlockWindow) (height : Height) : Option String :=
  match w.lowest? with
  | some lowest =>
    if lowest ≤ height then (w.blocks[(height - lowest).toNat]?).map (·.hash) else none
  | none => none

def contains (w : BlockWindow) (r : BlockRef) : Bool := w.hashAt? r.height == some r.hash

/-- There is a height after the tip, or no tip. -/
def hasNext (w : BlockWindow) : Bool := w.tip?.all fun tip => (tip.height.plus? 1).isSome

/-- Whether a block of this height goes on where the window ends. It is asked only
where there is a height after the tip. -/
def continues (w : BlockWindow) (height : Height) : Bool :=
  w.tip?.all fun tip => height == tip.height + 1

/-- Adds the next block. -/
def push (w : BlockWindow) (r : BlockRef) : BlockWindow :=
  let kept := if w.continues r.height then w.blocks else []
  let kept := if kept.length = w.capacity then kept.tail else kept
  { w with blocks := kept ++ [r] }

/-- Keeps the first of neighbours with the same height. -/
def dropRepeated : List BlockRef → List BlockRef
  | [] => []
  | r :: rest =>
    match dropRepeated rest with
    | [] => [r]
    | s :: more => if r.height = s.height then r :: more else r :: s :: more

/-- Starts anew from stored blocks in any order; the highest run without gaps stays. -/
def seed (w : BlockWindow) (refs : List BlockRef) : BlockWindow :=
  let sorted := dropRepeated (sortBy (fun r s => r.height < s.height) refs)
  sorted.foldl push { w with blocks := [] }

/-- Drops the blocks above a height, from the newest on. -/
def truncateAbove (w : BlockWindow) (height : Height) : BlockWindow :=
  { w with blocks := (w.blocks.reverse.dropWhile fun r => height < r.height).reverse }

end BlockWindow

end Paywatch
