import Paywatch.Order.Route
import Paywatch.Proofs.Basic

/-!
# Keys tell chains apart

The dedupe keys of on-chain transfers begin with the number of their chain in decimal
form and a colon.  A number can be read back from its digits, and a colon is no digit,
so equal keys are of one chain.
-/

namespace Paywatch

namespace Text

namespace Digits

theorem digitValue?_digitChar {d : Nat} (small : d < 16) :
    digitValue? (digitChar d) = some d := by
  have all : ∀ d : Fin 16, digitValue? (digitChar d) = some d.val := by decide
  exact all ⟨d, small⟩

theorem digitChar_ne_colon {d : Nat} (small : d < 16) : digitChar d ≠ ':' := by
  have all : ∀ d : Fin 16, digitChar d ≠ ':' := by decide
  exact all ⟨d, small⟩

variable {base : Nat}

theorem push_digitChar (small : base ≤ 16) (n : Nat) {d : Nat} (digit : d < base) :
    push base n (digitChar d) = some (n * base + d) := by
  simp only [push, digitValue?_digitChar (Nat.lt_of_lt_of_le digit small), if_pos digit]

/-- The digits of a number read as the number. -/
theorem read_write (two : 2 ≤ base) (small : base ≤ 16) (n : Nat) :
    read base (write base n) = some n := by
  induction n using Nat.strongRecOn with
  | ind n ih =>
      rw [write, Nat.max_eq_left two]
      split
      · rename_i digit
        simp [read, push_digitChar small 0 digit]
      · have less : n / base < n := Nat.div_lt_self (by omega) two
        have digit : n % base < base := Nat.mod_lt _ (by omega)
        have first : (write base (n / base)).foldlM (push base) 0 = some (n / base) :=
          ih _ less
        rw [read, List.foldlM_append, first]
        simp [push_digitChar small _ digit, Nat.div_add_mod']

theorem not_colon_of_write (two : 2 ≤ base) (small : base ≤ 16) (n : Nat) :
    ∀ c ∈ write base n, c ≠ ':' := by
  induction n using Nat.strongRecOn with
  | ind n ih =>
      rw [write, Nat.max_eq_left two]
      split
      · rename_i digit
        simpa using digitChar_ne_colon (Nat.lt_of_lt_of_le digit small)
      · have less : n / base < n := Nat.div_lt_self (by omega) two
        have digit : n % base < base := Nat.mod_lt _ (by omega)
        intro c member
        rcases List.mem_append.1 member with first | last
        · exact ih _ less c first
        · rw [List.mem_singleton.1 last]
          exact digitChar_ne_colon (Nat.lt_of_lt_of_le digit small)

end Digits

/-- Parts without colons before a colon are told by the whole. -/
theorem colon_cancel {a b x y : List Char} (first : ':' ∉ a) (second : ':' ∉ b)
    (same : a ++ ':' :: x = b ++ ':' :: y) : a = b ∧ x = y := by
  have before : ∀ {a x : List Char}, ':' ∉ a →
    (a ++ ':' :: x).takeWhile (· != ':') = a := by
    intro a x clean
    have all : ∀ c ∈ a, (c != ':') = true := fun c member =>
      bne_iff_ne.2 fun colon => clean (colon ▸ member)
    rw [List.takeWhile_append_of_pos all]
    simp
  have parts : a = b := by rw [← before first (x := x), ← before second (x := y), same]
  subst parts
  exact ⟨rfl, (List.cons.inj (List.append_cancel_left same)).2⟩

theorem colon_not_mem_decimal (n : Nat) : ':' ∉ (decimal n).toList := by
  rw [decimal, String.toList_ofList]
  exact fun member => Digits.not_colon_of_write (by decide) (by decide) n ':' member rfl

/-- A number can be read back from its digits. -/
theorem decimal_injective {m n : Nat} (same : decimal m = decimal n) : m = n := by
  have digits : Digits.write 10 m = Digits.write 10 n := String.ofList_injective same
  have read : Digits.read 10 (Digits.write 10 m) = some m :=
    Digits.read_write (by decide) (by decide) m
  rw [digits, Digits.read_write (by decide) (by decide) n] at read
  exact (Option.some.inj read).symm

theorem decimalWord_injective {m n : UInt64} (same : decimalWord m = decimalWord n) :
    m = n :=
  UInt64.toNat_inj.1 (decimal_injective same)

/-- A word in front of a colon can be read back. -/
theorem decimalWord_cancel {m n : UInt64} {x y : List Char}
    (same : (decimalWord m).toList ++ ':' :: x = (decimalWord n).toList ++ ':' :: y) :
    m = n ∧ x = y := by
  obtain ⟨digits, rest⟩ :=
    colon_cancel (colon_not_mem_decimal _) (colon_not_mem_decimal _) same
  exact ⟨decimalWord_injective (String.toList_injective digits), rest⟩

end Text

theorem ChainId.text_injective {c d : ChainId} (same : c.text = d.text) : c = d := by
  obtain ⟨m⟩ := c
  obtain ⟨n⟩ := d
  have number : m = n := Text.decimalWord_injective same
  rw [number]

/-- A chain in front of a colon can be read back. -/
theorem ChainId.text_cancel {c d : ChainId} {x y : List Char}
    (same : c.text.toList ++ ':' :: x = d.text.toList ++ ':' :: y) : c = d ∧ x = y := by
  obtain ⟨number, rest⟩ := Text.decimalWord_cancel same
  exact ⟨text_injective (congrArg Text.decimalWord number), rest⟩

/-- The keys that begin with a chain. -/
def ChainId.Opens (c : ChainId) (key : String) : Prop :=
  ∃ rest, key = "chain:" ++ (c.text ++ ":" ++ rest)

theorem ChainId.Opens.unique {c d : ChainId} {key : String} (first : c.Opens key)
    (second : d.Opens key) : c = d := by
  obtain ⟨x, rfl⟩ := first
  obtain ⟨y, same⟩ := second
  have chars := congrArg String.toList ((String.append_right_inj _).1 same)
  simp only [String.toList_append, List.append_assoc] at chars
  exact (text_cancel chars).1

theorem Transfer.opens_dedupeKey {t : Transfer} {o : ChainOrigin}
    (origin : t.origin = .blockchain o) : o.chain.Opens t.dedupeKey := by
  refine ⟨o.blockHash ++ ":" ++ o.txHash ++ ":" ++ Text.decimalWord o.logIndex, ?_⟩
  simp only [dedupeKey, origin, String.append_assoc]

end Paywatch
