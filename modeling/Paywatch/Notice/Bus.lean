import Paywatch.Notice.Basic

/-!
# The bus

Notices go out to every receiver that subscribed before. The bus keeps the newest
notices up to its capacity; a receiver that fell behind is told how many it missed and
goes on with the oldest one kept.
-/

namespace Paywatch

structure Bus where
  capacity : Nat
  /-- The newest notices, oldest first. -/
  kept : List Notice
  /-- How many notices were published. -/
  sent : Nat
  /-- For each receiver the number of the notice that it reads next. -/
  receivers : List Nat
deriving Inhabited

namespace Bus

def defaultCapacity : Nat := 1024

/-- The least power of two that is not below `n`, among the first `fuel` ones. -/
def powerAbove (n : Nat) : (fuel power : Nat) → Nat
  | 0, power => power
  | fuel + 1, power => if n ≤ power then power else powerAbove n fuel (2 * power)

/-- A bus for at least `n` notices: room comes in powers of two, and there
is room for one. -/
def ofCapacity (n : Nat) : Bus := ⟨powerAbove n (n.log2 + 2) 1, [], 0, []⟩

/-- A new receiver; gives back its number. -/
def subscribe (b : Bus) : Bus × Nat :=
  ({ b with receivers := b.receivers ++ [b.sent] }, b.receivers.length)

/-- Sends a notice. With no receiver it is lost. -/
def publish (b : Bus) (n : Notice) : Bus :=
  if b.receivers.isEmpty then b
  else
    let kept := b.kept ++ [n]
    { b with kept := kept.drop (kept.length - b.capacity), sent := b.sent + 1 }

def publishAll (b : Bus) (ns : List Notice) : Bus := ns.foldl publish b

/-- What a receiver gets. -/
inductive Received where
  | notice (n : Notice)
  /-- So many notices were missed. -/
  | lagged (missed : Nat)
  | empty
deriving DecidableEq

/-- The next notice of a receiver; `none` if there is no such receiver. -/
def receive? (b : Bus) (receiver : Nat) : Option (Received × Bus) :=
  b.receivers[receiver]?.map fun next =>
    let oldest := b.sent - b.kept.length
    let goTo (next : Nat) : Bus := { b with receivers := b.receivers.set receiver next }
    if next < oldest then (.lagged (oldest - next), goTo oldest)
    else
      match b.kept[next - oldest]? with
      | some n => (.notice n, goTo (next + 1))
      | none => (.empty, b)

/-- All notices that a receiver can still get. -/
def drain (b : Bus) (receiver : Nat) : List Notice × Bus :=
  let next := b.receivers[receiver]?.getD b.sent
  (b.kept.drop (next - (b.sent - b.kept.length)),
    { b with receivers := b.receivers.set receiver b.sent })

end Bus

end Paywatch
