import Mathlib.Data.List.TakeWhile
import Mathlib.Tactic.Ring
import Paywatch.Proofs.Text.Numerals

/-!
# Hexadecimal text

Where a text is cut after a number of bytes, what stands behind the marks in front of a
number, and what a row of digits is worth:  a row of `k` digits stays below the power
`base ^ k`, and one without zeros in front is not below the power before it, so the
length of a row without such zeros tells how many bits its number needs.
-/

namespace Paywatch.Text

theorem byteCount_append (xs ys : List Char) :
    byteCount (xs ++ ys) = byteCount xs + byteCount ys := by
  induction xs with
  | nil => simp [byteCount]
  | cons x xs ih => simp only [List.cons_append, byteCount, ih, Nat.add_assoc]

/-- A cut after so many bytes is the one way to split a text into a part of
that size and the rest. -/
theorem splitBytes?_eq_some {n : Nat} {cs head tail : List Char} :
    splitBytes? n cs = some (head, tail) ↔ cs = head ++ tail ∧ byteCount head = n := by
  induction cs generalizing n head with
  | nil =>
      cases n with
      | zero =>
          simp only [splitBytes?, Option.some.injEq, Prod.mk.injEq,
            List.nil_eq_append_iff, and_assoc]
          constructor
          · rintro ⟨rfl, rfl⟩
            exact ⟨rfl, rfl, rfl⟩
          · rintro ⟨rfl, rfl, -⟩
            exact ⟨rfl, rfl⟩
      | succ n =>
          simp only [splitBytes?, reduceCtorEq, false_iff, not_and]
          intro parts
          rw [(List.nil_eq_append_iff.1 parts).1]
          exact Nat.succ_ne_zero n ∘ Eq.symm
  | cons c cs ih =>
      have positive : 0 < c.utf8Size := Char.utf8Size_pos c
      cases n with
      | zero =>
          cases head with
          | nil => simp [splitBytes?, byteCount, eq_comm]
          | cons h head =>
              have wide : 0 < h.utf8Size := Char.utf8Size_pos h
              simp only [splitBytes?, Option.some.injEq, Prod.mk.injEq, reduceCtorEq,
                false_and, byteCount, false_iff, not_and]
              omega
      | succ n =>
          rw [splitBytes?]
          cases head with
          | nil => simp [byteCount]
          | cons h head =>
              simp only [byteCount, List.cons_append, List.cons.injEq]
              split
              · rename_i fits
                simp only [Option.map_eq_some_iff, Prod.exists, Prod.mk.injEq,
                  List.cons.injEq]
                constructor
                · rintro ⟨_, _, cut, ⟨rfl, rfl⟩, rfl⟩
                  obtain ⟨rfl, size⟩ := ih.1 cut
                  exact ⟨⟨rfl, rfl⟩, by omega⟩
                · rintro ⟨⟨rfl, rfl⟩, size⟩
                  exact ⟨head, tail, ih.2 ⟨rfl, by omega⟩, ⟨rfl, rfl⟩, rfl⟩
              · rename_i large
                simp only [reduceCtorEq, false_iff, not_and]
                rintro ⟨rfl, -⟩
                omega

theorem takeBytes?_eq_some {n : Nat} {cs head : List Char} :
    takeBytes? n cs = some head ↔ ∃ tail, cs = head ++ tail ∧ byteCount head = n := by
  simp [takeBytes?, splitBytes?_eq_some]

theorem dropBytes?_eq_some {n : Nat} {cs tail : List Char} :
    dropBytes? n cs = some tail ↔ ∃ head, cs = head ++ tail ∧ byteCount head = n := by
  simp [dropBytes?, splitBytes?_eq_some]

theorem utf8Size_of_isAscii {c : Char} (ascii : isAscii c = true) : c.utf8Size = 1 := by
  have low : c.toNat < 128 := of_decide_eq_true ascii
  exact Char.utf8Size_eq_one_iff.2 (by
    rw [UInt32.le_iff_toNat_le]
    exact Nat.le_of_lt_succ low)

theorem byteCount_of_isAscii {cs : List Char} (ascii : ∀ c ∈ cs, isAscii c = true) :
    byteCount cs = cs.length := by
  induction cs with
  | nil => rfl
  | cons c cs ih =>
      rw [List.forall_mem_cons] at ascii
      rw [byteCount, utf8Size_of_isAscii ascii.1, ih ascii.2, List.length_cons,
        Nat.add_comm]

/-- So many copies of two characters. -/
def pairs (a b : Char) (k : Nat) : List Char := (List.replicate k [a, b]).flatten

theorem pairs_succ (a b : Char) (k : Nat) : pairs a b (k + 1) = a :: b :: pairs a b k :=
  rfl

/-- Where the pair does not stand in front, nothing is removed. -/
theorem dropPairs_of_not {a b : Char} {cs : List Char} (bare : ¬ [a, b] <+: cs) :
    dropPairs a b cs = cs := by
  unfold dropPairs
  split
  · rename_i x y rest
    rw [if_neg]
    rintro ⟨rfl, rfl⟩
    exact bare ⟨rest, rfl⟩
  · rfl

/-- All copies in front are removed, however many there are. -/
theorem dropPairs_eq {a b : Char} {cs body : List Char} :
    dropPairs a b cs = body ↔ ∃ k, cs = pairs a b k ++ body ∧ ¬ [a, b] <+: body := by
  constructor
  · rintro rfl
    induction cs using dropPairs.induct a b with
    | case1 x y rest here ih =>
        obtain ⟨rfl, rfl⟩ := here
        obtain ⟨k, parts, bare⟩ := ih
        rw [dropPairs, if_pos ⟨rfl, rfl⟩]
        exact ⟨k + 1,
          by rw [pairs_succ, List.cons_append, List.cons_append, ← parts], bare⟩
    | case2 x y rest other =>
        have bare : ¬ [a, b] <+: x :: y :: rest := by
          rintro ⟨_, same⟩
          cases same
          exact other ⟨rfl, rfl⟩
        rw [dropPairs_of_not bare]
        exact ⟨0, rfl, bare⟩
    | case3 cs short =>
        have bare : ¬ [a, b] <+: cs := by
          rintro ⟨rest, rfl⟩
          exact short a b rest rfl
        rw [dropPairs_of_not bare]
        exact ⟨0, rfl, bare⟩
  · rintro ⟨k, rfl, bare⟩
    induction k with
    | zero => exact dropPairs_of_not bare
    | succ k ih =>
        rwa [pairs_succ, List.cons_append, List.cons_append, dropPairs, if_pos ⟨rfl, rfl⟩]

/-- A digit in either letter case has one value. -/
theorem digitValue?_lowerAscii (c : Char) :
    digitValue? (lowerAscii c) = digitValue? c := by
  unfold lowerAscii
  split
  · rename_i capital
    have all : ∀ i :
        Fin 26, digitValue? (Char.ofNat (65 + i + 32)) =
          digitValue? (Char.ofNat (65 + i)) := by decide
    have low : 65 ≤ c.toNat := capital.1
    have high : c.toNat ≤ 90 := capital.2
    have here := all ⟨c.toNat - 65, by omega⟩
    rwa [show 65 + (c.toNat - 65) = c.toNat by omega, Char.ofNat_toNat] at here
  · rfl

theorem isHexDigit_lowerAscii (c : Char) : isHexDigit (lowerAscii c) = isHexDigit c := by
  rw [isHexDigit, digitValue?_lowerAscii, isHexDigit]

theorem isAscii_of_isHexDigit {c : Char} (digit : isHexDigit c = true) :
    isAscii c = true := by
  have bound : c.toNat < 128 := by
    unfold isHexDigit digitValue? at digit
    split at digit
    · rename_i decimal
      exact Nat.lt_of_le_of_lt (show c.toNat ≤ 57 from decimal.2) (by decide)
    · split at digit
      · rename_i lower
        exact Nat.lt_of_le_of_lt (show c.toNat ≤ 102 from lower.2) (by decide)
      · split at digit
        · rename_i upper
          exact Nat.lt_of_le_of_lt (show c.toNat ≤ 70 from upper.2) (by decide)
        · cases digit
  exact decide_eq_true bound

namespace Digits

variable {base n : Nat} {c : Char} {cs : List Char}

theorem push_eq_some {m : Nat} :
    push base n c = some m ↔ ∃ d < base, digitValue? c = some d ∧ m = n * base + d := by
  unfold push
  cases digitValue? c with
  | none => simp
  | some d => simp [eq_comm, and_comm]

/-- Digits to the right of a number move it to the left by as many places. -/
theorem foldlM_push (m : Nat) (cs : List Char) :
    cs.foldlM (push base) m = (read base cs).map (m * base ^ cs.length + ·) := by
  induction cs generalizing m with
  | nil => simp [read]
  | cons c cs ih =>
      rw [read, List.foldlM_cons, List.foldlM_cons]
      cases first : push base 0 c with
      | none =>
          have refused : push base m c = none := by
            unfold push at first ⊢
            cases digit : digitValue? c <;> simp_all
          rw [refused]
          rfl
      | some d =>
          obtain ⟨d, small, digit, rfl⟩ := push_eq_some.1 first
          have next : push base m c = some (m * base + d) :=
            push_eq_some.2 ⟨d, small, digit, rfl⟩
          simp only [next, Option.bind_eq_bind, Option.bind_some, ih, Option.map_map,
            List.length_cons]
          congr 1
          funext rest
          simp only [Function.comp_apply]
          ring

theorem read_cons_eq_some {m : Nat} :
    read base (c :: cs) = some m ↔
      ∃ d < base, digitValue? c = some d ∧ ∃ rest, read base cs = some rest ∧
        m = d * base ^ cs.length + rest := by
  rw [read, List.foldlM_cons]
  simp only [Option.bind_eq_bind, Option.bind_eq_some_iff, push_eq_some, foldlM_push,
    Option.map_eq_some_iff, Nat.zero_mul, Nat.zero_add]
  constructor
  · rintro ⟨d, ⟨_, small, digit, rfl⟩, rest, value, rfl⟩
    exact ⟨d, small, digit, rest, value, rfl⟩
  · rintro ⟨d, small, digit, rest, value, rfl⟩
    exact ⟨d, ⟨d, small, digit, rfl⟩, rest, value, rfl⟩

theorem read_lt (value : read base cs = some n) : n < base ^ cs.length := by
  induction cs generalizing n with
  | nil =>
      cases value
      exact Nat.one_pos
  | cons c cs ih =>
      obtain ⟨d, small, -, rest, later, rfl⟩ := read_cons_eq_some.1 value
      calc d * base ^ cs.length + rest < d * base ^ cs.length + base ^ cs.length :=
          Nat.add_lt_add_left (ih later) _
        _ = (d + 1) * base ^ cs.length := by ring
        _ ≤ base * base ^ cs.length := Nat.mul_le_mul_right _ small
        _ = base ^ (c :: cs).length := by rw [List.length_cons, Nat.pow_succ']

/-- A digit in front that is not zero weighs as much as all its places. -/
theorem pow_le_of_read (significant : c ≠ '0') (value : read base (c :: cs) = some n) :
    base ^ cs.length ≤ n := by
  obtain ⟨d, -, digit, rest, -, rfl⟩ := read_cons_eq_some.1 value
  have positive : 0 < d := by
    refine Nat.pos_of_ne_zero ?_
    rintro rfl
    refine significant (Char.toNat_inj.1 ?_)
    unfold digitValue? at digit
    split at digit
    · rename_i decimal
      have low : 48 ≤ c.toNat := decimal.1
      have zero : c.toNat - 48 = 0 := Option.some.inj digit
      show c.toNat = 48
      omega
    · split at digit
      · exact absurd (Option.some.inj digit) (Nat.succ_ne_zero _)
      · split at digit
        · exact absurd (Option.some.inj digit) (Nat.succ_ne_zero _)
        · cases digit
  calc base ^ cs.length = 1 * base ^ cs.length := (Nat.one_mul _).symm
    _ ≤ d * base ^ cs.length := Nat.mul_le_mul_right _ positive
    _ ≤ d * base ^ cs.length + rest := Nat.le_add_right ..

theorem isHexDigit_of_read (value : read base cs = some n) :
    ∀ c ∈ cs, isHexDigit c = true := by
  induction cs generalizing n with
  | nil => exact fun _ member => nomatch member
  | cons c cs ih =>
      obtain ⟨d, -, digit, rest, later, -⟩ := read_cons_eq_some.1 value
      rw [List.forall_mem_cons]
      exact ⟨by rw [isHexDigit, digit]; rfl, ih later⟩

/-- Without its zeros in front a row has the same value. -/
theorem read_dropWhile_zero (two : 2 ≤ base) (cs : List Char) :
    read base (cs.dropWhile (· == '0')) = read base cs := by
  have zeros :
      cs.takeWhile (· == '0') = List.replicate (cs.takeWhile (· == '0')).length '0' := by
    refine List.eq_replicate_of_mem fun c member => ?_
    simpa using List.mem_takeWhile_imp member
  calc read base (cs.dropWhile (· == '0'))
      = read base (cs.takeWhile (· == '0') ++ cs.dropWhile (· == '0')) := by
        rw [zeros, read_zeros two]
    _ = read base cs := by rw [List.takeWhile_append_dropWhile]

/-- Without a plus sign the reader of bounded numbers reads every character as a digit. -/
theorem readUnsigned_eq_some {bound : Nat} (unsigned : '+' ∉ cs) :
    readUnsigned base bound cs = some n ↔ cs ≠ [] ∧ read base cs = some n ∧
      n < bound := by
  have bare : ∀ rest, cs ≠ '+' :: rest := by
    rintro rest rfl
    exact unsigned List.mem_cons_self
  simp [readUnsigned, Option.filter_eq_some_iff]

theorem read_lowerAscii (base : Nat) (cs : List Char) :
    read base (cs.map lowerAscii) = read base cs := by
  rw [read, List.foldlM_map]
  simp only [push, digitValue?_lowerAscii]
  rfl

/-- A row of a fixed width keeps the lowest digits of its number. -/
theorem read_hexWidth (width n : Nat) :
    read 16 (hexWidth width n) = some (n % 16 ^ width) := by
  induction width generalizing n with
  | zero => simp [hexWidth, read, Nat.mod_one]
  | succ width ih =>
      have parts :
          hexWidth (width + 1) n = hexWidth width (n / 16) ++ [digitChar (n % 16)] := by
        rw [hexWidth, List.range_succ, List.map_append, hexWidth]
        congr 1
        · apply List.map_congr_left
          intro i member
          have before := List.mem_range.1 member
          have place : width + 1 - 1 - i = width - 1 - i + 1 := by omega
          rw [place, Nat.pow_eq, Nat.pow_eq, Nat.pow_succ', Nat.div_div_eq_div_mul]
        · simp
      have first :
          (hexWidth width (n / 16)).foldlM (push 16) 0 = some (n / 16 % 16 ^ width) :=
            ih (n / 16)
      rw [parts, read, List.foldlM_append, first]
      simp only [Option.bind_eq_bind, Option.bind_some, List.foldlM_cons, List.foldlM_nil,
        push_digitChar (Nat.le_refl 16) _ (Nat.mod_lt n (by decide : 0 < 16)),
        Option.pure_def, Option.some.injEq]
      rw [Nat.pow_succ', Nat.mod_mul]
      ring

end Digits

end Paywatch.Text
