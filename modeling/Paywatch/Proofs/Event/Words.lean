import Mathlib.Tactic.NormNum.Basic
import Paywatch.Event.Decode
import Paywatch.Proofs.Text.Hexadecimal

/-!
# Words of logs

A log carries addresses and amounts as words of 32 bytes, written as 64 hexadecimal
digits.  Reading a log undoes writing it, and an amount above 128 bits is refused.  The
readers are more lenient than the writers:  they pass over any number of marks in front
of a word and over the first twelve bytes of an address.  What they take is said here
exactly, reader by reader and then for whole logs.
-/

namespace Paywatch

open Text (pairs)

/-- Hexadecimal digits do not begin with a mark. -/
theorem Text.not_mark_of_isHexDigit {cs : List Char}
    (digits : ∀ c ∈ cs, isHexDigit c = true) (rest : List Char) (long : 2 ≤ cs.length) :
    ¬ ['0', 'x'] <+: cs ++ rest := by
  rintro ⟨_, same⟩
  match cs, long with
  | c :: d :: cs, _ =>
      simp only [List.cons_append, List.cons.injEq] at same
      obtain ⟨-, mark, -⟩ := same
      have digit := digits d (by simp)
      rw [← mark] at digit
      exact absurd digit (by decide)

/-- A number in 64 hexadecimal digits, in either letter case. -/
structure Text.IsWord (n : Nat) (word : List Char) : Prop where
  length_eq : word.length = 64
  value : Digits.read 16 word = some n

namespace Text.IsWord

variable {n : Nat} {word : List Char}

/-- The word of a number below `2 ^ 256`, with some of its letters in upper case. -/
theorem of_hexWidth (small : n < 2 ^ 256)
    (written : word.map lowerAscii = hexWidth 64 n) : IsWord n word where
  length_eq := by
    have length := congrArg List.length written
    simpa [hexWidth] using length
  value := by
    rw [← Digits.read_lowerAscii, written, Digits.read_hexWidth, Nat.mod_eq_of_lt]
    exact Nat.lt_of_lt_of_eq small (by norm_num)

theorem isHexDigit (isWord : IsWord n word) : ∀ c ∈ word, isHexDigit c = true :=
  Digits.isHexDigit_of_read isWord.value

theorem not_mark (isWord : IsWord n word) (rest : List Char) :
    ¬ ['0', 'x'] <+: word ++ rest :=
  not_mark_of_isHexDigit isWord.isHexDigit rest (by rw [isWord.length_eq]; decide)

end Text.IsWord

namespace Address

/-- An address as it may stand in a topic:  any number of marks, 24 bytes that nobody
looks at, and the forty digits of the address in either letter case. -/
def StandsIn (a : Address) (topic : String) : Prop :=
  ∃ marks padding digits, topic.toList = pairs '0' 'x' marks ++ (padding ++ digits) ∧
    ¬ ['0', 'x'] <+: padding ∧
    Text.byteCount padding = 24 ∧ digits.map Text.lowerAscii = a.digits

theorem ofDigits?_eq_some {cs : List Char} {a : Address} :
    ofDigits? cs = some a ↔ cs.map Text.lowerAscii = a.digits := by
  constructor
  · intro found
    simp only [ofDigits?] at found
    split at found
    · cases found
      rfl
    · cases found
  · intro same
    obtain ⟨digits, length_eq, lower⟩ := a
    subst same
    exact dif_pos ⟨length_eq, lower⟩

theorem ofChars_mark_eq_ok {cs : List Char} {a : Address} :
    ofChars ('0' :: 'x' :: cs) = .ok a ↔ cs.map Text.lowerAscii = a.digits := by
  rw [← ofDigits?_eq_some, ofChars]
  cases ofDigits? cs with
  | none => simp
  | some b => simp

/-- The digits of an address take as many bytes as there are. -/
theorem byteCount_digits {a : Address} {digits : List Char}
    (same : digits.map Text.lowerAscii = a.digits) : Text.byteCount digits = 40 := by
  have ascii : ∀ c ∈ digits, Text.isAscii c = true := by
    intro c member
    have lower :=
      List.all_eq_true.1 a.lower (Text.lowerAscii c) (same ▸ List.mem_map_of_mem member)
    rw [Text.isLowerHexDigit, Bool.and_eq_true, Text.isHexDigit_lowerAscii] at lower
    exact Text.isAscii_of_isHexDigit lower.1
  rw [Text.byteCount_of_isAscii ascii, ← List.length_map Text.lowerAscii, same,
    a.length_eq]

/-- The reader of topics takes exactly the topics that an address stands in. -/
theorem ofTopic_eq_ok {topic : String} {a : Address} :
    ofTopic topic = .ok a ↔ a.StandsIn topic := by
  constructor
  · intro read
    simp only [ofTopic] at read
    split at read
    · rename_i tail cut
      split at read
      · obtain ⟨marks, parts, bare⟩ :=
          Text.dropPairs_eq.1 (rfl : Quantity.digits topic = _)
        obtain ⟨padding, body, size⟩ := Text.dropBytes?_eq_some.1 cut
        rw [body] at parts bare
        refine ⟨marks, padding, tail, parts, ?_, size, ofChars_mark_eq_ok.1 read⟩
        exact fun front => bare (front.trans (List.prefix_append padding tail))
      · cases read
    · cases read
  · rintro ⟨marks, padding, digits, parts, bare, size, same⟩
    -- 24 bytes are at least six characters, so a mark in front would stand inside them
    have wide : 2 ≤ padding.length := by
      match padding, size with
      | [], size => simp [Text.byteCount] at size
      | [c], size =>
          have narrow := Char.utf8Size_le_four c
          simp only [Text.byteCount] at size
          omega
      | _ :: _ :: _, _ => simp
    have body : Quantity.digits topic = padding ++ digits := by
      refine Text.dropPairs_eq.2 ⟨marks, parts, fun front => bare ?_⟩
      exact List.prefix_of_prefix_length_le front (List.prefix_append padding digits)
        (by simpa using wide)
    have cut : Text.dropBytes? 24 (padding ++ digits) = some digits :=
      Text.dropBytes?_eq_some.2 ⟨padding, rfl, size⟩
    rw [ofTopic, body]
    simp only [cut, Text.byteCount_append, size, byteCount_digits same, if_pos]
    exact ofChars_mark_eq_ok.2 same

/-- The word of an address is a topic that it stands in. -/
theorem standsIn_topic (a : Address) : a.StandsIn a.topic := by
  refine ⟨1, List.replicate 24 '0', a.digits,
    by simp [topic, pairs], by decide, by decide, ?_⟩
  have lower : ∀ c ∈ a.digits, Text.lowerAscii c = c := by
    intro c member
    have lower := List.all_eq_true.1 a.lower c member
    rw [Text.isLowerHexDigit, Bool.and_eq_true] at lower
    exact beq_iff_eq.1 lower.2
  rw [List.map_congr_left lower, List.map_id']

end Address

namespace Amount

variable {word : List Char} {n : Nat}

theorem ofQuantity_ofList (bare : ¬ ['0', 'x'] <+: word) :
    ofQuantity (String.ofList word) = ofSignificantDigits (String.ofList word)
      (word.dropWhile (· == '0')) := by
  rw [ofQuantity, Quantity.digits, String.toList_ofList, Text.dropPairs_of_not bare]

/-- A row of digits reads as its value, or overflows if its value does:  without the
zeros in front it has at most 32 digits exactly when the value fits into 128 bits. -/
theorem ofQuantity_of_read (value : Text.Digits.read 16 word = some n)
    (bare : ¬ ['0', 'x'] <+: word) :
    ofQuantity (String.ofList word) =
      match ofNat? n with
      | some a => .ok a
      | none => .error (.overflow (String.ofList word)) := by
  rw [ofQuantity_ofList bare]
  rw [← Text.Digits.read_dropWhile_zero (by decide)] at value
  have significant : ∀ c ∈ (word.dropWhile (· == '0')).head?, c ≠ '0' := by
    intro c first
    have passes := List.head?_dropWhile_not (· == '0') word
    rw [Option.mem_def.1 first] at passes
    simpa using passes
  generalize word.dropWhile (· == '0') = cs at value significant
  cases cs with
  | nil =>
      cases value
      rfl
  | cons c cs =>
      have leads : c ≠ '0' := significant c (by simp)
      have digits : ∀ d ∈ c :: cs, Text.isHexDigit d = true :=
        Text.Digits.isHexDigit_of_read value
      have size : Text.byteCount (c :: cs) = cs.length + 1 :=
        Text.byteCount_of_isAscii fun d member =>
          Text.isAscii_of_isHexDigit (digits d member)
      have above : 16 ^ cs.length ≤ n := Text.Digits.pow_le_of_read leads value
      have below : n < 16 ^ (cs.length + 1) := Text.Digits.read_lt value
      have limit : 16 ^ 32 = 1 <<< 128 := by decide
      simp only [ofSignificantDigits, List.isEmpty_cons, Bool.false_eq_true,
        if_false, size]
      split
      · rename_i long
        have large : 16 ^ 32 ≤ n :=
          Nat.le_trans (Nat.pow_le_pow_right (by decide) (by omega)) above
        rw [ofNat?, dif_neg (Nat.not_lt.2 (limit ▸ large))]
      · rename_i short
        have small : n < 16 ^ 32 :=
          Nat.lt_of_lt_of_le below (Nat.pow_le_pow_right (by decide) (by omega))
        have unsigned : '+' ∉ c :: cs :=
          fun member => absurd (digits '+' member) (by decide)
        rw [limit] at small
        rw [(Text.Digits.readUnsigned_eq_some unsigned).2 ⟨List.cons_ne_nil c cs, value,
          small⟩, Option.bind_some, ofNat?, dif_pos small]

/-- What reads as an amount, without a plus sign, is a row of digits of that value. -/
theorem read_of_ofQuantity {a : Amount} (read : ofQuantity (String.ofList word) = .ok a)
    (bare : ¬ ['0', 'x'] <+: word) (unsigned : '+' ∉ word) :
    Text.Digits.read 16 word = some a.units := by
  rw [ofQuantity_ofList bare] at read
  rw [← Text.Digits.read_dropWhile_zero (by decide)]
  have unsigned : '+' ∉ word.dropWhile (· == '0') :=
    fun member => unsigned ((List.dropWhile_sublist _).subset member)
  generalize word.dropWhile (· == '0') = cs at read unsigned
  unfold ofSignificantDigits at read
  split at read
  · rename_i empty
    cases read
    rw [List.isEmpty_iff.1 empty]
    rfl
  · split at read
    · cases read
    · split at read
      · rename_i b found
        cases read
        obtain ⟨n, value, fits⟩ := Option.bind_eq_some_iff.1 found
        obtain ⟨-, value, -⟩ := (Text.Digits.readUnsigned_eq_some unsigned).1 value
        rw [value, ofNat?_eq_some.1 fits]
      · cases read

/-- An amount as it may stand in the data of a log:  any number of marks, its
word, and anything behind. -/
def StandsIn (a : Amount) (data : String) : Prop :=
  ∃ marks word rest, data.toList = pairs '0' 'x' marks ++ (word ++ rest) ∧
    Text.IsWord a.units word

end Amount

namespace Log

variable {data : String} {n : Nat} {word rest : List Char}

/-- The word that data begins with is read as its number, or refused if
that is above 128 bits. -/
theorem firstWord_of_isWord {marks : Nat}
    (shape : data.toList = pairs '0' 'x' marks ++ (word ++ rest))
    (isWord : Text.IsWord n word) :
    firstWord data =
      match Amount.ofNat? n with
      | some a => .ok a
      | none => .error (.amountOverflow (String.ofList word)) := by
  have body : Quantity.digits data = word ++ rest :=
    Text.dropPairs_eq.2 ⟨marks, shape, isWord.not_mark rest⟩
  have ascii : ∀ c ∈ word, Text.isAscii c = true := fun c member =>
    Text.isAscii_of_isHexDigit (isWord.isHexDigit c member)
  have size : Text.byteCount word = 64 :=
    (Text.byteCount_of_isAscii ascii).trans isWord.length_eq
  have long : ¬ Text.byteCount (word ++ rest) < 64 := by
    rw [Text.byteCount_append, size]
    omega
  have cut : Text.takeBytes? 64 (word ++ rest) = some word :=
    Text.takeBytes?_eq_some.2 ⟨rest, rfl, size⟩
  have bare : ¬ ['0', 'x'] <+: word := by simpa using isWord.not_mark []
  simp only [firstWord, body, if_neg long, cut, List.all_eq_true.2 ascii, if_true,
    Amount.ofQuantity_of_read isWord.value bare]
  cases Amount.ofNat? n with
  | none => rfl
  | some a => rfl

/-- The reader of data takes exactly the data that begins with the word of an amount. -/
theorem firstWord_eq_ok {v : Amount}
    (unsigned : ∀ word, Text.takeBytes? 64 (Quantity.digits data) = some word →
      '+' ∉ word) :
    firstWord data = .ok v ↔ v.StandsIn data := by
  constructor
  · intro read
    simp only [firstWord] at read
    split at read
    · cases read
    · split at read
      · rename_i word cut
        split at read
        · rename_i ascii
          obtain ⟨marks, parts, bare⟩ :=
            Text.dropPairs_eq.1 (rfl : Quantity.digits data = _)
          obtain ⟨rest, body, size⟩ := Text.takeBytes?_eq_some.1 cut
          rw [body] at parts bare
          have length : word.length = 64 :=
            (Text.byteCount_of_isAscii (List.all_eq_true.1 ascii)).symm.trans size
          have bare : ¬ ['0', 'x'] <+: word :=
            fun front => bare (front.trans (List.prefix_append word rest))
          exact ⟨marks, word, rest, parts, length,
            Amount.read_of_ofQuantity (mapError_eq_ok.1 read) bare (unsigned word cut)⟩
        · cases read
      · cases read
  · rintro ⟨marks, word, rest, shape, isWord⟩
    rw [firstWord_of_isWord shape isWord, Amount.ofNat?_units]

end Log

end Paywatch
