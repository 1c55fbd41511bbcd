import Paywatch.Node.Basic

/-!
# Gas fees

What a transaction should offer. Chains with a base fee say it themselves; for
others the prices seen lately are averaged, newer ones with more weight. All
arithmetic stays within 128 bits.
-/

namespace Paywatch

namespace Amount

/-- The product, or the largest amount if the product does not fit. -/
def timesCapped (a : Amount) (n : Nat) : Amount := clamp (a.units * n)

end Amount

namespace FeeSample

/-- Twice the base fee and the priority fee, on chains with a base fee. -/
def recommended? (s : FeeSample) : Option Amount :=
  s.baseFee.map fun base => (base.timesCapped 2).addCapped (s.maxPriorityFee.getD .zero)

end FeeSample

/-- The newest gas prices, oldest first. -/
structure GasHistory where
  prices : List Amount
  capacity : Nat
  capacity_pos : 0 < capacity

namespace GasHistory

def defaultCapacity : Nat := 200

theorem room_pos (n : Nat) : 0 < max n 1 := by omega

/-- An empty history; it has room for one price at least. -/
def ofCapacity (n : Nat) : GasHistory := ⟨[], max n 1, room_pos n⟩

instance : Inhabited GasHistory := ⟨ofCapacity defaultCapacity⟩

def size (g : GasHistory) : Nat := g.prices.length

/-- Adds a price; a full history gives up its oldest one. -/
def record (g : GasHistory) (price : Amount) : GasHistory :=
  let kept := if g.prices.length = g.capacity then g.prices.tail else g.prices
  { g with prices := kept ++ [price] }

/-- The sum of the prices, the first one `weight` times, the next once more, and so on. -/
def weightedSum : (weight : Nat) → (total : Amount) → List Amount → Amount
  | _, total, [] => total
  | weight, total, price :: rest =>
    weightedSum (weight + 1) (total.addCapped (price.timesCapped weight)) rest

/-- The mean of the prices, in which the `i`-th oldest weighs `i`. -/
def weightedMean? (g : GasHistory) : Option Amount :=
  let n := g.prices.length
  if n = 0 then none
  else
    let sum := weightedSum 1 .zero g.prices
    some ⟨sum.units / (n * (n + 1) / 2),
      Nat.lt_of_le_of_lt (Nat.div_le_self ..) sum.units_lt⟩

/-- Records the gas price of a sample and estimates the fee. -/
def estimate (g : GasHistory) (s : FeeSample) : Option Amount × GasHistory :=
  let g := match s.gasPrice with
    | some price => g.record price
    | none => g
  (s.recommended?.or g.weightedMean?, g)

end GasHistory

end Paywatch
