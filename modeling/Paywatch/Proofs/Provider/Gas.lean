import Mathlib.Algebra.BigOperators.Fin
import Mathlib.Algebra.BigOperators.Intervals
import Mathlib.Algebra.Order.BigOperators.Group.Finset
import Mathlib.Data.Finset.Max
import Paywatch.Proofs.Basic
import Paywatch.Provider.Gas

/-!
# Means of gas prices

A history keeps the newest prices, as many as there is room for, and their mean weighs
the newest one most.  The sum behind the mean is capped at 128 bits in every step,
which would spoil the mean without a sign.  As long as the highest price, taken as
often as all weights together, fits into 128 bits, nothing is ever capped:  the mean is
the exact one, rounded down.
-/

namespace Paywatch

namespace GasHistory

variable {prices : List Amount} {weight : Nat} {total sum : Amount}

/-! ## What is kept -/

/-- The history after these prices were recorded, one after the other. -/
def recorded (capacity : Nat) (prices : List Amount) : GasHistory :=
  prices.foldl record (ofCapacity capacity)

theorem recorded_snoc (capacity : Nat) (prices : List Amount) (price : Amount) :
    recorded capacity (prices ++ [price]) = (recorded capacity prices).record price := by
  simp only [recorded, List.foldl_append, List.foldl_cons, List.foldl_nil]

/-- The newest prices are kept, as many as there is room for. -/
theorem kept_recorded (capacity : Nat) (prices : List Amount) :
    (recorded capacity prices).prices = prices.rtake (max capacity 1) ∧
      (recorded capacity prices).capacity = max capacity 1 := by
  -- a new price comes in at the end, so the induction takes the newest one off
  induction prices using List.reverseRecOn with
  | nil => exact ⟨(List.rtake_nil _).symm, rfl⟩
  | append_singleton prices price ih =>
      obtain ⟨kept, room⟩ := ih
      rw [recorded_snoc]
      refine ⟨?_, room⟩
      rw [rtake_concat (room_pos capacity), ← kept, ← room]
      rfl

theorem size_recorded_le (capacity : Nat) (prices : List Amount) :
    (recorded capacity prices).size ≤ max capacity 1 := by
  rw [size, (kept_recorded capacity prices).1, List.rtake, List.length_drop]
  omega

/-- A sample without a base fee is estimated by the mean of the prices,
its own among them. -/
theorem estimate_recorded (capacity : Nat) (prices : List Amount) {s : FeeSample}
    (legacy : s.baseFee = none) :
    ((recorded capacity prices).estimate s).1 =
      (recorded capacity (prices ++ s.gasPrice.toList)).weightedMean? := by
  unfold estimate
  cases price : s.gasPrice with
  | none => simp [FeeSample.recommended?, legacy]
  | some price => simp [FeeSample.recommended?, legacy, recorded_snoc]

/-! ## The sum of the weighed prices -/

/-- The sum of the prices, the first one `weight` times, the next once more,
and so on, of any size. -/
def weighed (weight : Nat) (prices : List Amount) : Nat :=
  ∑ i : Fin prices.length, (weight + i) * prices[i].units

theorem weighed_cons (weight : Nat) (price : Amount) (prices : List Amount) :
    weighed weight (price :: prices) = price.units * weight +
      weighed (weight + 1) prices := by
  unfold weighed
  refine (Fin.sum_univ_succ _).trans ?_
  simp only [Fin.val_zero, Nat.add_zero, Fin.val_succ]
  congr 1
  · exact Nat.mul_comm _ _
  · refine Finset.sum_congr rfl fun i _ => ?_
    rw [Nat.add_right_comm, Nat.add_assoc]
    rfl

/-- The sum of the weighed prices with every step checked:  nothing if a product or a
sum exceeds 128 bits. -/
def checkedSum? : (weight : Nat) → (total : Amount) → List Amount → Option Amount
  | _, total, [] => some total
  | weight, total, price :: rest => do
    let product ← Amount.ofNat? (price.units * weight)
    let total ← total.add? product
    checkedSum? (weight + 1) total rest

/-- The checks pass exactly if the whole sum fits. -/
theorem checkedSum?_eq_some :
    checkedSum? weight total prices = some sum ↔
      sum.units = total.units + weighed weight prices := by
  induction prices generalizing weight total with
  | nil =>
      rw [checkedSum?, Option.some_inj, ← Amount.units_inj]
      exact eq_comm
  | cons price prices ih =>
      simp only [checkedSum?, Option.bind_eq_bind, Option.bind_eq_some_iff, Amount.add?,
        Amount.ofNat?_eq_some, ih, weighed_cons]
      constructor
      · rintro ⟨product, isProduct, next, isNext, whole⟩
        omega
      · -- every product and every sum on the way is at most the whole sum
        intro whole
        have fits := sum.units_lt
        refine ⟨⟨price.units * weight, by omega⟩, rfl,
          ⟨total.units + price.units * weight, by omega⟩, rfl, ?_⟩
        rw [whole, Nat.add_assoc]

/-- Where the checks pass, nothing is capped. -/
theorem weightedSum_of_checked (checked : checkedSum? weight total prices = some sum) :
    weightedSum weight total prices = sum := by
  induction prices generalizing weight total with
  | nil => exact Option.some.inj checked
  | cons price prices ih =>
      simp only [checkedSum?, Option.bind_eq_bind, Option.bind_eq_some_iff, Amount.add?,
        Amount.ofNat?_eq_some] at checked
      obtain ⟨product, isProduct, next, isNext, rest⟩ := checked
      have uncapped : price.timesCapped weight = product := by
        rw [Amount.timesCapped, isProduct, Amount.clamp_units]
      have uncapped' : total.addCapped product = next := by
        rw [Amount.addCapped, isNext, Amount.clamp_units]
      rw [weightedSum, uncapped, uncapped', ih rest]

/-! ## Bounds -/

theorem sum_weights (n : Nat) : ∑ i : Fin n, (1 + i : Nat) = n * (n + 1) / 2 := by
  have upTo : ∑ i ∈ Finset.range n, (1 + i) = ∑ i ∈ Finset.range (n + 1), i := by
    simp only [Finset.sum_range_succ', Nat.add_comm 1, Nat.add_zero]
  rw [Fin.sum_univ_eq_sum_range (fun i => 1 + i) n, upTo, Finset.sum_range_id,
    Nat.add_sub_cancel, Nat.mul_comm]

theorem weighed_le {high : Nat} (below : ∀ p ∈ prices, p.units ≤ high) :
    weighed 1 prices ≤ high * (prices.length * (prices.length + 1) / 2) := by
  rw [weighed, ← sum_weights, Finset.mul_sum]
  apply Finset.sum_le_sum
  intro i _
  rw [Nat.mul_comm]
  exact Nat.mul_le_mul_right _ (below _ (List.getElem_mem _))

theorem le_weighed {low : Nat} (above : ∀ p ∈ prices, low ≤ p.units) :
    low * (prices.length * (prices.length + 1) / 2) ≤ weighed 1 prices := by
  rw [weighed, ← sum_weights, Finset.mul_sum]
  apply Finset.sum_le_sum
  intro i _
  rw [Nat.mul_comm]
  exact Nat.mul_le_mul_left _ (above _ (List.getElem_mem _))

theorem exists_extremes (some : prices ≠ []) :
    ∃ low ∈ prices, ∃ high ∈ prices, ∀ p ∈ prices, low ≤ p ∧ p ≤ high := by
  have nonempty : prices.toFinset.Nonempty := (List.toFinset_nonempty_iff prices).2 some
  obtain ⟨low, isKept, lowest⟩ :=
    Finset.exists_min_image prices.toFinset Amount.units nonempty
  obtain ⟨high, isKept', highest⟩ :=
    Finset.exists_max_image prices.toFinset Amount.units nonempty
  refine ⟨low, List.mem_toFinset.1 isKept, high, List.mem_toFinset.1 isKept', ?_⟩
  intro p member
  have among := List.mem_toFinset.2 member
  exact ⟨lowest p among, highest p among⟩

/-! ## The mean -/

/-- The mean of prices in which the `i`-th oldest weighs `i`, rounded down:  the sum
behind it is exact, and it lies between the lowest and the highest price. -/
structure IsWeightedMean (prices : List Amount) (mean : Amount) : Prop where
  uncapped : checkedSum? 1 .zero prices = some (weightedSum 1 .zero prices)
  floor : mean.units = weighed 1 prices / (prices.length * (prices.length + 1) / 2)
  between : ∃ low ∈ prices, ∃ high ∈ prices, (∀ p ∈ prices, low ≤ p ∧ p ≤ high) ∧
    low ≤ mean ∧ mean ≤ high

theorem weightedMean?_eq {g : GasHistory} (some : g.prices ≠ []) :
    ∃ mean, g.weightedMean? = .some mean ∧
      mean.units = (weightedSum 1 .zero g.prices).units /
        (g.size * (g.size + 1) / 2) := by
  have nonempty : g.prices.length ≠ 0 :=
    fun empty => some (List.eq_nil_of_length_eq_zero empty)
  exact ⟨_, if_neg nonempty, rfl⟩

/-- The mean depends on nothing but the prices that are kept. -/
theorem weightedMean?_congr {g h : GasHistory} (same : g.prices = h.prices) :
    g.weightedMean? = h.weightedMean? := by
  simp only [weightedMean?, same]

theorem weightedMean?_eq_none {g : GasHistory} :
    g.weightedMean? = none ↔ g.prices = [] := by
  constructor
  · intro nothing
    by_contra some
    obtain ⟨mean, isMean, -⟩ := weightedMean?_eq some
    rw [nothing] at isMean
    cases isMean
  · intro empty
    simp only [weightedMean?, empty, List.length_nil, if_true]

theorem weights_pos {n : Nat} (some : 0 < n) : 0 < n * (n + 1) / 2 := by
  have atLeast : 1 * 2 ≤ n * (n + 1) := Nat.mul_le_mul some (Nat.succ_le_succ some)
  exact Nat.div_pos atLeast Nat.two_pos

/-- The mean is exact if every price fits into 128 bits when it is taken as often as
all weights together. -/
theorem isWeightedMean_of_fits {g : GasHistory} (some : g.prices ≠ [])
    (fits : ∀ p ∈ g.prices, p.units * (g.size * (g.size + 1) / 2) < 1 <<< 128) :
    ∃ mean, g.weightedMean? = .some mean ∧ IsWeightedMean g.prices mean := by
  obtain ⟨mean, isMean, units⟩ := weightedMean?_eq some
  obtain ⟨low, isKept, high, isKept', within⟩ := exists_extremes some
  have atLeast : low.units * (g.size * (g.size + 1) / 2) ≤ weighed 1 g.prices :=
    le_weighed fun p member => (within p member).1
  have atMost : weighed 1 g.prices ≤ high.units * (g.size * (g.size + 1) / 2) :=
    weighed_le fun p member => (within p member).2
  have checked :
      checkedSum? 1 .zero g.prices =
        .some ⟨weighed 1 g.prices, atMost.trans_lt (fits high isKept')⟩ := by
    rw [checkedSum?_eq_some, Amount.units_zero, Nat.zero_add]
  have exact := weightedSum_of_checked checked
  rw [exact] at units
  have positive : 0 < g.size * (g.size + 1) / 2 :=
    weights_pos (List.length_pos_iff.2 some)
  refine ⟨mean, isMean, ?_, units, low, isKept, high, isKept', within, ?_, ?_⟩
  · rw [exact, checked]
  · show low.units ≤ mean.units
    rw [units]
    exact (Nat.le_div_iff_mul_le positive).2 atLeast
  · show mean.units ≤ high.units
    rw [units]
    exact Nat.div_le_of_le_mul (atMost.trans_eq (Nat.mul_comm _ _))

/-- A price that fits with all weights of a full history fits with those of a history
that is not full yet. -/
theorem fits_of_room {n room units : Nat} (within : n ≤ room)
    (full : units * room * (room + 1) / 2 < 2 ^ 128) :
    units * (n * (n + 1) / 2) < 1 <<< 128 := by
  have whole : units * room * (room + 1) / 2 = units * (room * (room + 1) / 2) := by
    rw [Nat.mul_assoc]
    exact Nat.mul_div_assoc _ (Nat.even_mul_succ_self room).two_dvd
  rw [whole] at full
  have fewer : n * (n + 1) / 2 ≤ room * (room + 1) / 2 :=
    Nat.div_le_div_right (Nat.mul_le_mul within (Nat.succ_le_succ within))
  calc units * (n * (n + 1) / 2)
      ≤ units * (room * (room + 1) / 2) := Nat.mul_le_mul_left _ fewer
    _ < 1 <<< 128 := full

/-- Whatever prices were recorded, the mean is that of the newest ones, as many as there
is room for.  It is missing only as long as nothing was recorded; otherwise it is exact
but for the last rounding, if no price is so high that it would exceed 128 bits with all
weights of a full history.  It is what chains without a base fee are estimated by. -/
theorem mean_of_recorded (capacity : Nat) (prices : List Amount)
    (moderate : ∀ p ∈ prices,
      p.units * max capacity 1 * (max capacity 1 + 1) / 2 < 2 ^ 128) :
    ((recorded capacity prices).weightedMean? = none ↔ prices = []) ∧
      (∀ others : List Amount,
        others.rtake (max capacity 1) = prices.rtake (max capacity 1) →
        (recorded capacity others).weightedMean? =
          (recorded capacity prices).weightedMean?) ∧
      (prices ≠ [] → ∃ mean, (recorded capacity prices).weightedMean? = some mean ∧
        IsWeightedMean (prices.rtake (max capacity 1)) mean) ∧
      ∀ s : FeeSample, s.baseFee = none → ((recorded capacity prices).estimate s).1 =
        (recorded capacity (prices ++ s.gasPrice.toList)).weightedMean? := by
  obtain ⟨kept, room⟩ := kept_recorded capacity prices
  have nothing : (recorded capacity prices).prices = [] ↔ prices = [] := by
    rw [kept]
    exact rtake_eq_nil (room_pos capacity)
  refine ⟨weightedMean?_eq_none.trans nothing, ?_, ?_,
    fun s legacy => estimate_recorded capacity prices legacy⟩
  · intro others same
    apply weightedMean?_congr
    rw [(kept_recorded capacity others).1, kept, same]
  · intro some
    have fits : ∀ p ∈ (recorded capacity prices).prices,
        p.units * ((recorded capacity prices).size *
          ((recorded capacity prices).size + 1) / 2) < 1 <<< 128 := by
      intro p member
      rw [kept] at member
      exact fits_of_room (size_recorded_le capacity prices)
        (moderate p (List.mem_of_mem_drop member))
    rw [← kept]
    exact isWeightedMean_of_fits (mt nothing.1 some) fits

/-- The last price is the highest one that two prices allow: three times it is the
greatest number of 128 bits. -/
def samplePrices : List Amount :=
  [⟨2000000001, by decide⟩, ⟨3000000002, by decide⟩,
    ⟨113427455640312821154458202477256070485, by decide⟩]

theorem mean_of_recorded_sample :
    (∀ p ∈ samplePrices, p.units * max 2 1 * (max 2 1 + 1) / 2 < 2 ^ 128) ∧
      (recorded 2 (.max :: samplePrices)).weightedMean? =
        (recorded 2 samplePrices).weightedMean? ∧
      ∃ mean, (recorded 2 samplePrices).weightedMean? = some mean ∧
        IsWeightedMean samplePrices.tail mean ∧
        mean.units = 75618303760208547436305468319170713657 := by
  have moderate :
      ∀ p ∈ samplePrices, p.units * max 2 1 * (max 2 1 + 1) / 2 < 2 ^ 128 := by decide
  obtain ⟨-, newest, exact, -⟩ := mean_of_recorded 2 samplePrices moderate
  obtain ⟨mean, isMean, weighted⟩ := exact (List.cons_ne_nil _ _)
  refine ⟨moderate, newest _ rfl, mean, isMean, weighted, ?_⟩
  rw [weighted.floor]
  decide

end GasHistory

end Paywatch
