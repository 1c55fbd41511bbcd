import Mathlib.Data.List.Nodup
import Paywatch.Chain.Document
import Paywatch.Proofs.Time.Text

/-!
# Data that was written is read

The simple values that documents are made of are read back as they were written:
numbers of every width, addresses, amounts, instants and identifiers.  A record gives
its parts in any order, as long as it names each of them once, and a variant gives its
name and its other parts.
-/

namespace Paywatch

namespace Text

theorem utf8ByteSize_ofList (cs : List Char) :
    (String.ofList cs).utf8ByteSize = byteCount cs := by
  induction cs with
  | nil => rfl
  | cons c cs ih =>
      rw [String.ofList_cons, String.utf8ByteSize_append, String.utf8ByteSize_singleton,
        ih, byteCount]

end Text

namespace Ulid

theorem valueOf?_charOf (n : Nat) : valueOf? (charOf n) = some (n % 32) := by
  have all : ∀ d : Fin 32, valueOf? (charOf d) = some d.val := by decide
  have same : charOf n = charOf (n % 32) := by rw [charOf, charOf, Nat.mod_mod]
  rw [same]
  exact all ⟨n % 32, Nat.mod_lt _ (by decide)⟩

theorem utf8Size_charOf (n : Nat) : (charOf n).utf8Size = 1 := by
  have all : ∀ d : Fin 32, (charOf d).utf8Size = 1 := by decide
  have same : charOf n = charOf (n % 32) := by rw [charOf, charOf, Nat.mod_mod]
  rw [same]
  exact all ⟨n % 32, Nat.mod_lt _ (by decide)⟩

/-- The last characters of a number, five bits each. -/
def lastChars (k n : Nat) : List Char :=
  (List.range k).map fun i => charOf (n / Nat.pow 32 (k - 1 - i))

theorem lastChars_succ (k n : Nat) :
    lastChars (k + 1) n = charOf (n / Nat.pow 32 k) :: lastChars k n := by
  rw [lastChars, List.range_succ_eq_map, List.map_cons, List.map_map]
  congr 1
  apply List.map_congr_left
  intro i _
  show charOf (n / Nat.pow 32 (k + 1 - 1 - (i + 1))) = charOf (n / Nat.pow 32 (k - 1 - i))
  rw [show k + 1 - 1 - (i + 1) = k - 1 - i by omega]

/-- Each character pushes the number read so far five bits to the left. -/
theorem readFrom_lastChars (k m n : Nat) :
    readFrom m (lastChars k n) = some (m * 32 ^ k + n % 32 ^ k) := by
  induction k generalizing m with
  | zero => simp [lastChars, readFrom, Nat.mod_one]
  | succ k ih =>
      rw [lastChars_succ, readFrom, valueOf?_charOf, Option.bind_some, ih]
      have power : Nat.pow 32 k = 32 ^ k := rfl
      congr 1
      rw [power, Nat.mod_pow_succ, Nat.pow_succ]
      grind

theorem byteCount_lastChars (k n : Nat) : Text.byteCount (lastChars k n) = k := by
  induction k with
  | zero => rfl
  | succ k ih => rw [lastChars_succ, Text.byteCount, utf8Size_charOf, ih, Nat.add_comm]

theorem ofText_text (u : Ulid) : ofText u.text = .ok u := by
  have all : u.chars = lastChars 26 u.value := rfl
  have small : u.value < 32 ^ 26 := Nat.lt_trans u.value_lt (by decide)
  have size : u.text.utf8ByteSize = 26 := by
    rw [text, Text.utf8ByteSize_ofList, all, byteCount_lastChars]
  have value : readFrom 0 u.text.toList = some u.value := by
    rw [text, String.toList_ofList, all, readFrom_lastChars, Nat.zero_mul, Nat.zero_add,
      Nat.mod_eq_of_lt small]
  have whole : ofNat u.value = u := by
    obtain ⟨value, bound⟩ := u
    simp only [ofNat, Nat.mod_eq_of_lt bound]
  simp only [ofText, if_pos size, value, whole]

end Ulid

namespace Address

theorem ofText_text (a : Address) : ofText a.text = .ok a := by
  have lower : a.digits.map Text.lowerAscii = a.digits := by
    have each : ∀ c ∈ a.digits, Text.lowerAscii c = c := by
      intro c member
      have digit := List.all_eq_true.1 a.lower c member
      exact beq_iff_eq.1 (Bool.and_eq_true_iff.1 digit).2
    exact (List.map_congr_left each).trans (List.map_id _)
  have whole : ofDigits? a.digits = some a := by
    unfold ofDigits?
    simp only [lower]
    exact dif_pos ⟨a.length_eq, a.lower⟩
  simp only [ofText, text, String.toList_ofList, ofChars, whole]

end Address

namespace Amount

theorem ofText_text (a : Amount) : ofText a.text = .ok a := by
  have trimmed :
      Text.trim (Text.Digits.write 10 a.units) = Text.Digits.write 10 a.units :=
    Text.trim_eq_self fun c member =>
      (Text.Digits.isDecimal_of_write c member).not_isBlank
  simp only [ofText, text, Text.decimal, String.toList_ofList, trimmed,
    Text.readUnsigned_write a.units_lt, Option.bind_some, ofNat?_units]

end Amount

namespace Data

variable {α : Type} {read : Data → Option α}

@[simp] theorem text?_text (s : String) : (text s).text? = some s := rfl

@[simp] theorem word?_ofWord (n : UInt64) : (ofWord n).word? = some n := by
  have bound : n.toNat < UInt64.size := n.toNat_lt
  have natural : (0 : Int) ≤ n.toNat := Int.natCast_nonneg _
  simp only [word?, natBelow?, ofWord, if_pos natural, Int.toNat_natCast,
    Option.filter_some, decide_eq_true bound, if_true, Option.map_some,
    UInt64.ofNat_toNat]

@[simp] theorem natBelow?_ofNat (n : UInt32) :
    (ofNat n.toNat).natBelow? UInt32.size = some n.toNat := by
  have bound : n.toNat < UInt32.size := n.toNat_lt
  simp [natBelow?, ofNat, bound]

@[simp] theorem int64?_int (n : Int64) : (int n.toInt).int64? = some n := by
  have low : Int64.minValue.toInt ≤ n.toInt := n.minValue_le_toInt
  have high : n.toInt ≤ Int64.maxValue.toInt := n.toInt_le
  have range :
      (decide (Int64.minValue.toInt ≤ n.toInt) && decide (n.toInt ≤ Int64.maxValue.toInt))
      = true := by
    rw [decide_eq_true low, decide_eq_true high, Bool.and_self]
  simp only [int64?, Option.filter_some, range, if_true, Option.map_some,
    Int64.ofInt_toInt]

/-- An optional value is read as it was written if its values are, and none
is written as nothing. -/
theorem option?_ofOption {write : α → Data} (back : ∀ a, read (write a) = some a)
    (shown : ∀ a, (write a).isNull = false) (a : Option α) :
    option? read (ofOption write a) = some a := by
  cases a with
  | none => rfl
  | some a => simp [option?, ofOption, shown, back]

variable {name other : String} {value : Data} {entries : List (String × Data)}

/-- The parts of a record by its entries. -/
def Parts.ofEntries (entries : List (String × Data)) : Parts :=
  ⟨fun name => (entries.find? (·.1 == name)).map (·.2), false⟩

/-- A record that repeats no name gives its parts. -/
@[simp] theorem parts?_record {names : List String}
    (once : (entries.map Prod.fst).Nodup) :
    (record entries).parts? names = some (.ofEntries entries) := by
  have single : ∀ name, (entries.filter (·.1 == name)).length ≤ 1 := by
    intro name
    have counted :
        (entries.filter (·.1 == name)).length = (entries.map Prod.fst).count name := by
      rw [List.count, List.countP_map, List.countP_eq_length_filter]
      rfl
    rw [counted]
    exact List.nodup_iff_count_le_one.1 once name
  have all : names.all (fun name => decide ((entries.filter (·.1 == name)).length ≤ 1)) =
    true := by
    simp [single]
  simp only [parts?, all, if_true]
  rfl

/-- The first entry of a record is found. -/
theorem Parts.find_head :
    (Parts.ofEntries ((name, value) :: entries)).find name = some value := by
  simp [Parts.ofEntries]

/-- An entry of another name is passed over. -/
theorem Parts.find_tail (differs : other ≠ name) :
    (Parts.ofEntries ((other, value) :: entries)).find name =
      (Parts.ofEntries entries).find name := by
  simp [Parts.ofEntries, differs]

@[simp] theorem Parts.need_head {read : Data → Option α} :
    (Parts.ofEntries ((name, value) :: entries)).need name read = read value := by
  simp [Parts.need, Parts.find_head]

@[simp] theorem Parts.need_tail {read : Data → Option α} (differs : other ≠ name) :
    (Parts.ofEntries ((other, value) :: entries)).need name read
      = (Parts.ofEntries entries).need name read := by
  simp [Parts.need, Parts.find_tail differs]

theorem Parts.optional_head {read : Data → Option α} {write : α → Data}
    (back : ∀ a, read (write a) = some a) (shown : ∀ a, (write a).isNull = false)
    (a : Option α) :
    (Parts.ofEntries ((name, ofOption write a) :: entries)).optional name read =
      some a := by
  simp [Parts.optional, Parts.find_head, option?_ofOption back shown]

@[simp] theorem Parts.optional_tail {read : Data → Option α} (differs : other ≠ name) :
    (Parts.ofEntries ((other, value) :: entries)).optional name read
      = (Parts.ofEntries entries).optional name read := by
  simp only [Parts.optional, Parts.find_tail differs]
  rfl

/-- A record with its variant in front gives the variant's name and the rest. -/
@[simp] theorem tagged?_record {tag variant : String}
    (free : tag ∉ entries.map Prod.fst) :
    (record ((tag, .text variant) :: entries)).tagged? tag =
      some (variant, record entries) := by
  have none : entries.filter (·.1 == tag) = [] := by
    rw [List.filter_eq_nil_iff]
    intro entry member same
    exact free (beq_iff_eq.1 same ▸ List.mem_map_of_mem member)
  have rest : entries.filter (·.1 != tag) = entries := by
    rw [List.filter_eq_self]
    intro entry member
    exact bne_iff_ne.2 fun same => free (same ▸ List.mem_map_of_mem member)
  simp [tagged?, none, rest]

end Data

@[simp] theorem ChainId.ofData?_toData (chain : ChainId) :
    ofData? chain.toData = some chain := by
  simp [ofData?, toData]

@[simp] theorem Address.ofData?_toData (a : Address) : ofData? a.toData = some a := by
  simp [ofData?, toData, ofText_text, Except.toOption]

@[simp] theorem Amount.ofData?_toData (a : Amount) : ofData? a.toData = some a := by
  simp [ofData?, toData, ofText_text, Except.toOption]

@[simp] theorem Instant.ofData?_toData (t : Instant) : ofData? t.toData = some t := by
  simp [ofData?, toData, ofText_text, Except.toOption]

@[simp] theorem Id.ofData?_toData {entity : Entity} (id : Id entity) :
    ofData? id.toData = some id := by
  simp [ofData?, toData, text, Ulid.ofText_text, Except.toOption]

end Paywatch
