import Paywatch.Proofs.Text.Numerals
import Paywatch.Time.Text

/-!
# Instants are read back

The reader of stored instants takes the text that is written for an instant and gives
the instant again, to the nanosecond: years outside of four digits with their sign,
fractions in every length that is written, and leap seconds.
-/

namespace Paywatch

open Text

namespace TimeLayout

theorem isDigit_eq_true {c : Char} : isDigit c = true ↔ IsDecimal c := by
  simp [isDigit, IsDecimal]

/-- What follows does not go on with a digit. -/
def Stops (rest : List Char) : Prop := ∀ c ∈ rest.head?, ¬ IsDecimal c

theorem stops_cons {c : Char} {rest : List Char} (stop : ¬ IsDecimal c) :
    Stops (c :: rest) := by
  simpa [Stops] using stop

theorem Stops.takeWhile_take {rest : List Char} (stops : Stops rest) (k : Nat) :
    (rest.take k).takeWhile isDigit = [] := by
  cases k with
  | zero => rfl
  | succ k =>
      cases rest with
      | nil => rfl
      | cons c rest =>
          have stop : ¬ isDigit c = true :=
            fun digit => stops c rfl (isDigit_eq_true.1 digit)
          rw [List.take_succ_cons, List.takeWhile_cons_of_neg stop]

theorem Stops.dropWhile {rest : List Char} (stops : Stops rest) :
    rest.dropWhile isDigit = rest := by
  cases rest with
  | nil => rfl
  | cons c rest =>
      rw [List.dropWhile_cons_of_neg fun digit => stops c rfl (isDigit_eq_true.1 digit)]

theorem skipBlanks_cons {c : Char} {cs : List Char} (clean : isBlank c = false) :
    skipBlanks (c :: cs) = c :: cs := by
  rw [skipBlanks, List.dropWhile_cons_of_neg (by simp [clean])]

/-- Digits are read up to where they stop. -/
theorem number_append {least : Nat} {most : Option Nat} {digits rest : List Char}
    {n : Nat} (decimal : ∀ c ∈ digits, IsDecimal c)
    (value : Digits.read 10 digits = some n) (enough : least ≤ digits.length)
    (fits : ∀ m ∈ most, digits.length ≤ m) (small : n < 1 <<< 63) (stops : Stops rest) :
    number least most (digits ++ rest) = .ok (n, rest) := by
  have long : ¬ byteCount (digits ++ rest) < least := by
    have counted := length_le_byteCount (digits ++ rest)
    rw [List.length_append] at counted
    omega
  have room : digits.length ≤ most.getD (digits ++ rest).length := by
    cases most with
    | none => simp
    | some m => exact fits m rfl
  have taken :
      ((digits ++ rest).take (most.getD (digits ++ rest).length)).takeWhile isDigit
      = digits := by
    rw [List.take_append, List.take_of_length_le room,
      List.takeWhile_append_of_pos fun c member => isDigit_eq_true.2 (decimal c member),
      stops.takeWhile_take, List.append_nil]
  simp only [number, if_neg long, taken, value, Option.getD_some, List.drop_left,
    if_neg (Nat.not_lt.2 enough), if_neg (Nat.not_le.2 small)]

variable {r after : Reading} {rest : List Char}

theorem read_cons {item : Item} {items : List Item} {cs : List Char}
    (one : item.read r cs = .ok (after, rest)) :
    read (item :: items) r cs = read items after rest := by
  rw [read, one]
  rfl

/-- A year of four digits, or of any number of digits behind its sign. -/
theorem signedYear_yearDigits {year : Int} (low : Calendar.minYear ≤ year)
    (high : year ≤ Calendar.maxYear) (stops : Stops rest) :
    signedYear 4 (skipBlanks (Instant.yearDigits year ++ rest)) = .ok (year, rest) := by
  have low : -262143 ≤ year := low
  have high : year ≤ 262142 := high
  have signed :
      number 1 none (decimalWidth 4 year.natAbs ++ rest) = .ok (year.natAbs, rest) := by
    have length := le_length_decimalWidth 4 year.natAbs
    exact number_append isDecimal_of_decimalWidth read_decimalWidth (by omega)
      (by simp) (by omega) stops
  rw [Instant.yearDigits]
  split
  · rename_i short
    have taken :
        number 1 (some 4) (decimalWidth 4 year.toNat ++ rest) =
          .ok (year.toNat, rest) := by
      have length : (decimalWidth 4 year.toNat).length = 4 :=
        length_decimalWidth (by decide) (by omega)
      exact number_append isDecimal_of_decimalWidth read_decimalWidth (by omega)
        (by simp [length]) (by omega) stops
    obtain ⟨c, cs, shape, digit⟩ := head_decimalWidth (show 0 < 4 by decide) year.toNat
    rw [shape] at taken ⊢
    rw [List.cons_append, skipBlanks_cons digit.not_isBlank]
    rw [List.cons_append] at taken
    have minus : c ≠ '-' := digit.ne (by decide)
    have plus : c ≠ '+' := digit.ne (by decide)
    have number : (year.toNat : Int) = year := Int.toNat_of_nonneg short.1
    simp [signedYear, taken, bind, Except.bind, pure, Except.pure, minus, plus, number]
  · split
    · rename_i negative
      have number : -(year.natAbs : Int) = year := by omega
      rw [List.cons_append, skipBlanks_cons (by decide)]
      simp only [signedYear, signed, bind, Except.bind, pure, Except.pure, number]
    · rename_i positive
      have number : (year.natAbs : Int) = year := by omega
      rw [List.cons_append, skipBlanks_cons (by decide)]
      simp only [signedYear, signed, bind, Except.bind, pure, Except.pure, number]

theorem read_year {year : Int} (low : Calendar.minYear ≤ year)
    (high : year ≤ Calendar.maxYear) (stops : Stops rest) :
    Item.read (.free .year 4) r (Instant.yearDigits year ++ rest)
      = .ok ({ r with year := year }, rest) := by
  have set : r.set .year year = .ok { r with year := year } := by
    have low : -262143 ≤ year := low
    have high : year ≤ 262142 := high
    have range : Int32.minValue.toInt ≤ year ∧ year ≤ Int32.maxValue.toInt := by
      have least : Int32.minValue.toInt = -2147483648 := by decide
      have most : Int32.maxValue.toInt = 2147483647 := by decide
      omega
    simp only [Reading.set, if_pos range]
  simp only [Item.read, signedYear_yearDigits low high stops, bind, Except.bind, set]
  rfl

/-- A fraction in digits of any width up to nine. -/
theorem read_fraction_digits {width n nanos : Nat} (some : 0 < width) (nine : width ≤ 9)
    (small : n < 10 ^ width) (whole : n * Nat.pow 10 (9 - width) = nanos)
    (stops : Stops rest) :
    Item.read .fraction r ('.' :: decimalWidth width n ++ rest)
      = .ok ({ r with nanos := nanos }, rest) := by
  have length : (decimalWidth width n).length = width := length_decimalWidth some small
  have bound : 10 ^ width ≤ 10 ^ 9 := Nat.pow_le_pow_right (by decide) nine
  have taken : number 1 (.some 9) (decimalWidth width n ++ rest) = .ok (n, rest) :=
    number_append isDecimal_of_decimalWidth read_decimalWidth (by omega)
      (by simp [length, nine]) (by omega) stops
  have counted : (decimalWidth width n ++ rest).length - rest.length = width := by
    simp [length]
  simp only [Item.read, List.cons_append, taken, bind, Except.bind, counted,
    stops.dropWhile, whole]
  rfl

/-- The fraction in the width that loses nothing. -/
theorem read_fraction {nanos : Nat} (small : nanos < 1000000000) (fresh : r.nanos = 0)
    {c : Char} (stop : ¬ IsDecimal c) (noPoint : c ≠ '.') :
    Item.read .fraction r (Instant.fractionDigits nanos ++ c :: rest)
      = .ok ({ r with nanos := nanos }, c :: rest) := by
  rw [Instant.fractionDigits]
  split
  · rename_i none
    simp [Item.read, noPoint, none, ← fresh, pure, Except.pure]
  split
  · rename_i _ millis
    exact read_fraction_digits (by decide) (by decide) (by omega)
      (Nat.div_mul_cancel (Nat.dvd_of_mod_eq_zero millis)) (stops_cons stop)
  split
  · rename_i _ _ micros
    exact read_fraction_digits (by decide) (by decide) (by omega)
      (Nat.div_mul_cancel (Nat.dvd_of_mod_eq_zero micros)) (stops_cons stop)
  · exact read_fraction_digits (by decide) (by decide) small (Nat.mul_one nanos)
      (stops_cons stop)

theorem read_blanks {c : Char} (clean : isBlank c = false) :
    Item.read .blanks r (c :: rest) = .ok (r, c :: rest) := by
  simp only [Item.read, skipBlanks_cons clean]
  rfl

theorem read_mark (c : Char) : Item.read (.mark c) r (c :: rest) = .ok (r, rest) := by
  simp only [Item.read, if_true]
  rfl

theorem read_separator : Item.read .separator r ('T' :: rest) = .ok (r, rest) := by
  simp only [Item.read, true_or, or_true, if_true]
  rfl

/-- The numbers of a date and a clock that can stand in their place; years are
signed and stand apart. -/
def Field.Takes (field : Field) (n : Nat) : Prop :=
  match field with
  | .year => False
  | .month => 1 ≤ n ∧ n ≤ 12
  | .day => 1 ≤ n ∧ n ≤ 31
  | .hour => n < 24
  | .minute => n < 60
  | .second => n ≤ 60

/-- The numbers read with one of them replaced. -/
def Reading.put (r : Reading) (field : Field) (n : Nat) : Reading :=
  match field with
  | .year => { r with year := n }
  | .month => { r with month := n }
  | .day => { r with day := n }
  | .hour => { r with hour := n }
  | .minute => { r with minute := n }
  | .second => { r with second := n }

theorem Field.Takes.lt {field : Field} {n : Nat} (takes : field.Takes n) : n < 100 := by
  cases field <;> simp only [Field.Takes] at takes <;> omega

theorem set_put {field : Field} {n : Nat} (takes : field.Takes n) :
    r.set field n = .ok (r.put field n) := by
  cases field <;> simp only [Field.Takes] at takes <;> simp [Reading.set, Reading.put]
    <;> omega

/-- Two digits of a month, a day or a clock. -/
theorem read_free {field : Field} {n : Nat} (takes : field.Takes n) (stops : Stops rest) :
    Item.read (.free field 2) r (decimalWidth 2 n ++ rest) =
      .ok (r.put field n, rest) := by
  have clean : skipBlanks (decimalWidth 2 n ++ rest) = decimalWidth 2 n ++ rest := by
    obtain ⟨c, cs, shape, digit⟩ := head_decimalWidth (show 0 < 2 by decide) n
    rw [shape, List.cons_append, skipBlanks_cons digit.not_isBlank]
  have length : (decimalWidth 2 n).length = 2 := length_decimalWidth (by decide) takes.lt
  have taken : number 1 (some 2) (decimalWidth 2 n ++ rest) = .ok (n, rest) :=
    number_append isDecimal_of_decimalWidth read_decimalWidth (by omega)
      (by simp [length]) (by have := takes.lt; omega) stops
  have set := set_put (r := r) takes
  cases field with
  | year => exact takes.elim
  | _ =>
      simp only [Item.read, clean, taken, bind, Except.bind, set]
      rfl

end TimeLayout

namespace Instant

open TimeLayout

/-- The numbers of an instant. -/
def reading (t : Instant) : Reading :=
  { year := t.year, month := t.month, day := t.day, hour := t.hour, minute := t.minute,
    second := t.second, nanos := t.nanos }

/-- The numbers of an instant can stand in their places. -/
structure InRange (t : Instant) : Prop where
  year : Calendar.minYear ≤ t.year ∧ t.year ≤ Calendar.maxYear
  month : Field.Takes .month t.month
  day : Field.Takes .day t.day
  hour : Field.Takes .hour t.hour
  minute : Field.Takes .minute t.minute
  second : Field.Takes .second t.second
  nanos : t.nanos < 1000000000

theorem daysInMonth_le (year : Int) (month : Nat) :
    Calendar.daysInMonth year month ≤ 31 := by
  unfold Calendar.daysInMonth
  split
  · split <;> decide
  all_goals decide

theorem inRange (t : Instant) : t.InRange := by
  have valid := t.valid
  simp only [Calendar.isDate, Bool.and_eq_true, decide_eq_true_eq] at valid
  obtain ⟨⟨⟨⟨⟨⟨low, high⟩, first⟩, last⟩, one⟩, most⟩, clock, nanos⟩ := valid
  obtain ⟨⟨hour, minute⟩, second⟩ := clock
  exact {
    year := ⟨low, high⟩
    month := ⟨first, last⟩
    day := ⟨one, Nat.le_trans most (daysInMonth_le _ _)⟩
    hour, minute, second, nanos }

theorem stops_fractionDigits (nanos : Nat) : Stops (fractionDigits nanos ++ ['Z']) := by
  unfold fractionDigits
  repeat' split
  all_goals exact stops_cons (by decide)

/-- The reader of stored values reads every number of an instant and stops before
the letter at its end. -/
theorem read_chars (t : Instant) : read relaxed {} t.chars = .ok (t.reading, ['Z']) := by
  have range := t.inRange
  have shape : t.chars = yearDigits t.year ++ '-' :: (decimalWidth 2 t.month ++ '-' ::
      (decimalWidth 2 t.day ++
        'T' :: (decimalWidth 2 t.hour ++ ':' :: (decimalWidth 2 t.minute ++
        ':' :: (decimalWidth 2 t.second ++ (fractionDigits t.nanos ++ ['Z'])))))) := by
    simp [chars]
  rw [shape, relaxed,
    read_cons (read_year range.year.1 range.year.2 (stops_cons (by decide))),
    read_cons (read_blanks (by decide)), read_cons (read_mark '-'),
    read_cons (read_free range.month (stops_cons (by decide))),
    read_cons (read_blanks (by decide)), read_cons (read_mark '-'),
    read_cons (read_free range.day (stops_cons (by decide))), read_cons read_separator,
    read_cons (read_free range.hour (stops_cons (by decide))),
    read_cons (read_blanks (by decide)), read_cons (read_mark ':'),
    read_cons (read_free range.minute (stops_cons (by decide))),
    read_cons (read_blanks (by decide)), read_cons (read_mark ':'),
    read_cons (read_free range.second (stops_fractionDigits _)),
    read_cons (read_fraction range.nanos rfl (by decide) (by decide)),
    read_cons (read_blanks (by decide))]
  rfl

/-- The text of an instant is read as the instant. -/
theorem ofText_text (t : Instant) : ofText t.text = .ok t := by
  have fields :
      ofFields? t.year t.month t.day t.hour t.minute t.second t.nanos = some t :=
    dif_pos t.valid
  have noLetters : (['Z'].take 3).map lowerAscii ≠ ['u', 't', 'c'] := by decide
  have universal : offset anyColons ['Z'] = .ok (0, []) := rfl
  have whole : t.reading.instant 0 = .ok t := by
    simp [Reading.instant, reading, fields, atOffset?]
  simp only [ofText, text, String.toList_ofList, read_chars, bind, Except.bind,
    if_neg noLetters, universal]
  exact whole

end Instant

end Paywatch
