import Mathlib.Algebra.Group.Nat.Defs
import Paywatch.Proofs.Order.Keys
import Paywatch.Text.Blank
import Paywatch.Text.Bytes

/-!
# Numerals

What the digits of a number look like and how they are read back: every digit is a
decimal one, zeros on the left change nothing, and a number below a power of ten
fits into as many digits.
-/

namespace Paywatch.Text

/-- A decimal digit. -/
def IsDecimal (c : Char) : Prop := '0' ≤ c ∧ c ≤ '9'

instance (c : Char) : Decidable (IsDecimal c) := inferInstanceAs (Decidable (_ ∧ _))

theorem isDecimal_digitChar {d : Nat} (small : d < 10) : IsDecimal (digitChar d) := by
  have all : ∀ d : Fin 10, IsDecimal (digitChar d) := by decide
  exact all ⟨d, small⟩

theorem IsDecimal.not_isBlank {c : Char} (digit : IsDecimal c) : isBlank c = false := by
  obtain ⟨low, high⟩ := digit
  have low : 48 ≤ c.toNat := low
  have high : c.toNat ≤ 57 := high
  simp only [isBlank, Bool.or_eq_false_iff, Bool.and_eq_false_imp, decide_eq_true_eq,
    decide_eq_false_iff_not, beq_eq_false_iff_ne, ne_eq]
  omega

theorem IsDecimal.ne {c d : Char} (digit : IsDecimal c) (other : ¬ IsDecimal d) :
    c ≠ d := by
  rintro rfl
  exact other digit

theorem length_le_byteCount (cs : List Char) : cs.length ≤ byteCount cs := by
  induction cs with
  | nil => exact Nat.le_refl 0
  | cons c cs ih =>
      have some : 0 < c.utf8Size := Char.utf8Size_pos c
      simp only [byteCount, List.length_cons]
      omega

/-- Text without blanks at its ends loses nothing. -/
theorem trim_eq_self {cs : List Char} (clean : ∀ c ∈ cs, isBlank c = false) :
    trim cs = cs := by
  have keep : ∀ {cs : List Char}, (∀ c ∈ cs, isBlank c = false) →
    cs.dropWhile isBlank = cs := by
    intro cs clean
    cases cs with
    | nil => rfl
    | cons c cs => rw [List.dropWhile_cons_of_neg (by simp [clean c])]
  rw [trim, keep clean, keep (by simpa using clean), List.reverse_reverse]

namespace Digits

variable {base : Nat}

theorem mem_write (two : 2 ≤ base) (n : Nat) :
    ∀ c ∈ write base n, ∃ d < base, c = digitChar d := by
  induction n using Nat.strongRecOn with
  | ind n ih =>
      rw [write, Nat.max_eq_left two]
      split
      · rename_i digit
        intro c member
        exact ⟨n, digit, List.mem_singleton.1 member⟩
      · have less : n / base < n := Nat.div_lt_self (by omega) two
        intro c member
        rcases List.mem_append.1 member with first | last
        · exact ih _ less c first
        · exact ⟨n % base, Nat.mod_lt _ (by omega), List.mem_singleton.1 last⟩

theorem isDecimal_of_write {n : Nat} : ∀ c ∈ write 10 n, IsDecimal c := by
  intro c member
  obtain ⟨d, small, rfl⟩ := mem_write (by decide) n c member
  exact isDecimal_digitChar small

theorem write_ne_nil (n : Nat) : write base n ≠ [] := by
  rw [write]
  split <;> simp

/-- A number below a power of the base needs no more digits than the exponent says. -/
theorem length_write_le (two : 2 ≤ base) {width : Nat} (some : 0 < width) {n : Nat}
    (small : n < base ^ width) : (write base n).length ≤ width := by
  induction width generalizing n with
  | zero => omega
  | succ width ih =>
      rw [write, Nat.max_eq_left two]
      split
      · simp
      · rename_i large
        cases width with
        | zero => simp at small; omega
        | succ width =>
            have less : n / base < base ^ (width + 1) := by
              rw [Nat.div_lt_iff_lt_mul (by omega)]
              exact small
            have fits := ih (by omega) less
            simp only [List.length_append, List.length_singleton]
            omega

/-- Zeros on the left change nothing. -/
theorem read_zeros (two : 2 ≤ base) (k : Nat) (cs : List Char) :
    read base (List.replicate k '0' ++ cs) = read base cs := by
  induction k with
  | zero => rfl
  | succ k ih =>
      have zero : push base 0 '0' = some 0 := by
        have digit : digitValue? '0' = some 0 := by decide
        simp only [push, digit, Nat.zero_mul, Nat.add_zero,
          if_pos (show 0 < base by omega)]
      rw [List.replicate_succ, List.cons_append, read, List.foldlM_cons, zero]
      exact ih

end Digits

variable {width n : Nat}

theorem read_decimalWidth : Digits.read 10 (decimalWidth width n) = some n := by
  rw [decimalWidth, padded, Digits.read_zeros (by decide),
    Digits.read_write (by decide) (by decide)]

theorem isDecimal_of_decimalWidth : ∀ c ∈ decimalWidth width n, IsDecimal c := by
  intro c member
  rcases List.mem_append.1 member with zero | digit
  · rw [List.eq_of_mem_replicate zero]
    decide
  · exact Digits.isDecimal_of_write c digit

theorem le_length_decimalWidth (width n : Nat) :
    width ≤ (decimalWidth width n).length := by
  simp only [decimalWidth, padded, List.length_append, List.length_replicate]
  omega

theorem length_decimalWidth (some : 0 < width) (small : n < 10 ^ width) :
    (decimalWidth width n).length = width := by
  have fits := Digits.length_write_le (by decide) some small
  simp only [decimalWidth, padded, List.length_append, List.length_replicate]
  omega

/-- Digits begin with a digit. -/
theorem head_decimalWidth {width : Nat} (some : 0 < width) (n : Nat) :
    ∃ c cs, decimalWidth width n = c :: cs ∧ IsDecimal c := by
  cases shape : decimalWidth width n with
  | nil =>
      have long := le_length_decimalWidth width n
      rw [shape, List.length_nil] at long
      omega
  | cons c cs =>
      exact ⟨c, cs, rfl,
        isDecimal_of_decimalWidth c (by rw [shape]; exact List.mem_cons_self)⟩

/-- A bounded reader takes the decimal form of every number below its bound. -/
theorem readUnsigned_write {bound : Nat} (small : n < bound) :
    Digits.readUnsigned 10 bound (Digits.write 10 n) = some n := by
  have unsigned : ∀ rest, Digits.write 10 n ≠ '+' :: rest := by
    intro rest shape
    have plus :=
      Digits.isDecimal_of_write (n := n) '+' (by rw [shape]; exact List.mem_cons_self)
    exact absurd plus (by decide)
  have value : Digits.read 10 (Digits.write 10 n) = some n :=
    Digits.read_write (by decide) (by decide) n
  simp [Digits.readUnsigned, Digits.write_ne_nil, value, small]

end Paywatch.Text
