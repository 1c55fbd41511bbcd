import Mathlib.Algebra.Group.Nat.Defs
import Paywatch.Chain.Height

/-!
# Sums and differences of heights

A sum or a difference of heights is either that of the numbers, or there is none.
-/

namespace Paywatch

namespace Height

variable {h m : Height} {n : UInt64}

theorem plus?_eq_some_iff : h.plus? n = some m ↔ m.toNat = h.toNat + n.toNat := by
  have bound := m.toNat_lt
  unfold plus?
  split
  · rename_i fits
    have sum : (h + n).toNat = h.toNat + n.toNat := by
      rw [UInt64.toNat_add, Nat.mod_eq_of_lt fits]
    rw [Option.some.injEq, ← UInt64.toNat_inj, sum, eq_comm]
  · rename_i outside
    have outside : ¬ h.toNat + n.toNat < 2 ^ 64 := outside
    refine ⟨nofun, fun sum => absurd ?_ outside⟩
    omega

theorem plus?_eq_none_iff : h.plus? n = none ↔ 2 ^ 64 ≤ h.toNat + n.toNat := by
  simp [plus?]

/-- There is a sum where it fits. -/
theorem plus?_of_lt (fits : h.toNat + n.toNat < 2 ^ 64) :
    ∃ m, h.plus? n = some m ∧ m.toNat = h.toNat + n.toNat := by
  have is : h.plus? n = some (h + n) := if_pos fits
  exact ⟨h + n, is, plus?_eq_some_iff.1 is⟩

/-- Every height but the last has a next one. -/
theorem next_of_lt (notLast : h.toNat + 1 < 2 ^ 64) :
    ∃ m, h.plus? 1 = some m ∧ m.toNat = h.toNat + 1 :=
  plus?_of_lt notLast

theorem minus?_eq_some_iff : h.minus? n = some m ↔ h.toNat = m.toNat + n.toNat := by
  unfold minus?
  split
  · rename_i fits
    have below := UInt64.le_iff_toNat_le.1 fits
    have difference := UInt64.toNat_sub_of_le h n fits
    rw [Option.some.injEq, ← UInt64.toNat_inj, difference]
    omega
  · rename_i outside
    rw [UInt64.le_iff_toNat_le] at outside
    refine ⟨nofun, fun sum => absurd ?_ outside⟩
    omega

theorem minus?_of_le (fits : n.toNat ≤ h.toNat) :
    ∃ m, h.minus? n = some m ∧ h.toNat = m.toNat + n.toNat := by
  have is : h.minus? n = some (h - n) := if_pos (UInt64.le_iff_toNat_le.2 fits)
  exact ⟨h - n, is, minus?_eq_some_iff.1 is⟩

end Height

end Paywatch
