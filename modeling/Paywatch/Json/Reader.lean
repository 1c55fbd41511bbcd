import Paywatch.Data.Record

/-!
# JSON texts

Reading JSON. A number without fraction and exponent that fits into 64 bits, with or
without sign, is an integer; every other number is a float and has to be finite. Values
may be nested up to 127 deep.
-/

namespace Paywatch.Json

def isSpace (c : Char) : Bool := c == ' ' || c == '\t' || c == '\n' || c == '\r'

def skip (cs : List Char) : List Char := cs.dropWhile isSpace

/-- Four hexadecimal digits. -/
def unit? : List Char → Option (Nat × List Char)
  | a :: b :: c :: d :: rest => (Text.Digits.read 16 [a, b, c, d]).map fun n => (n, rest)
  | _ => none

/-- The character behind a backslash and the letter `u`; two surrogates
make one character. -/
def escapedChar? (cs : List Char) : Option (Char × List Char) := do
  let (high, rest) ← unit? cs
  if 0xD800 ≤ high ∧ high < 0xDC00 then
    match rest with
    | '\\' :: 'u' :: rest =>
      let (low, rest) ← unit? rest
      if 0xDC00 ≤ low ∧ low < 0xE000 then
        some (Char.ofNat (0x10000 + (high - 0xD800) * 0x400 + (low - 0xDC00)), rest)
      else none
    | _ => none
  else if 0xDC00 ≤ high ∧ high < 0xE000 then none
  else some (Char.ofNat high, rest)

/-- The rest of a string after its opening quote. `fuel` bounds the number
of characters. -/
def stringBody? : Nat → List Char → Option (List Char × List Char)
  | 0, _ => none
  | fuel + 1, cs =>
    let more (c : Char) (rest : List Char) :=
      (stringBody? fuel rest).map fun (tail, rest) => (c :: tail, rest)
    match cs with
    | [] => none
    | '"' :: rest => some ([], rest)
    | '\\' :: e :: rest =>
      match e with
      | '"' => more '"' rest
      | '\\' => more '\\' rest
      | '/' => more '/' rest
      | 'b' => more '\x08' rest
      | 'f' => more '\x0c' rest
      | 'n' => more '\n' rest
      | 'r' => more '\r' rest
      | 't' => more '\t' rest
      | 'u' => (escapedChar? rest).bind fun (c, rest) => more c rest
      | _ => none
    | c :: rest => if c.toNat < 32 ∨ c = '\\' then none else more c rest

/-- A string from its opening quote on. -/
def string? : List Char → Option (String × List Char)
  | '"' :: rest =>
    (stringBody? (rest.length + 1) rest).map fun (cs, rest) => (String.ofList cs, rest)
  | _ => none

/-- The characters that can belong to a number. -/
def isNumberChar (c : Char) : Bool :=
  ('0' ≤ c && c ≤ '9') || c == '+' || c == '-' || c == '.' || c == 'e' || c == 'E'

/-- The value of a complete number. -/
def number? (cs : List Char) : Option Data := do
  let isDigit (c : Char) : Bool := '0' ≤ c && c ≤ '9'
  let (negative, body) : Bool × List Char := match cs with
    | '-' :: rest => (true, rest)
    | _ => (false, cs)
  let whole := body.takeWhile isDigit
  let rest := body.dropWhile isDigit
  let wellFormed := match whole with
    | [] => false
    | '0' :: _ :: _ => false
    | _ => true
  if !wellFormed then none
  else if rest.isEmpty then
    let n ← Text.Digits.read 10 whole
    if negative then
      if n = 0 then some (.float (-0.0))
      else if n ≤ 1 <<< 63 then some (.int (-(n : Int)))
      else (Data.scientific? true n 0).map .float
    else if n < UInt64.size then some (.int n)
    else (Data.scientific? false n 0).map .float
  else
    let fractionStarts := match rest with
      | '.' :: d :: _ => isDigit d
      | '.' :: [] => false
      | _ => true
    let (_, _, _) ← Data.decimalParts? body
    if fractionStarts then (Data.decimalFloat? cs).map .float else none

mutual

/-- A value at the start of the text. `depth` bounds nesting and `fuel`
the number of steps. -/
def value? (fuel depth : Nat) (cs : List Char) : Option (Data × List Char) :=
  match fuel with
  | 0 => none
  | fuel + 1 =>
    match skip cs with
    | 'n' :: 'u' :: 'l' :: 'l' :: rest => some (.null, rest)
    | 't' :: 'r' :: 'u' :: 'e' :: rest => some (.bool true, rest)
    | 'f' :: 'a' :: 'l' :: 's' :: 'e' :: rest => some (.bool false, rest)
    | '"' :: rest => (string? ('"' :: rest)).map fun (s, rest) => (.text s, rest)
    | '[' :: rest =>
      match depth with
      | 0 => none
      | depth + 1 =>
        match skip rest with
        | ']' :: rest => some (.list [], rest)
        | _ => (items? fuel depth rest).map fun (items, rest) => (.list items, rest)
    | '\x7b' :: rest =>
      match depth with
      | 0 => none
      | depth + 1 =>
        match skip rest with
        | '\x7d' :: rest => some (.record [], rest)
        | _ =>
            (entries? fuel depth rest).map fun (entries, rest) => (.record entries, rest)
    | cs =>
      let body := cs.takeWhile isNumberChar
      (number? body).map fun n => (n, cs.drop body.length)
termination_by fuel

/-- The items of a list up to its closing bracket. -/
def items? (fuel depth : Nat) (cs : List Char) : Option (List Data × List Char) :=
  match fuel with
  | 0 => none
  | fuel + 1 => do
    let (item, rest) ← value? fuel depth cs
    match skip rest with
    | ',' :: rest =>
      let (items, rest) ← items? fuel depth rest
      some (item :: items, rest)
    | ']' :: rest => some ([item], rest)
    | _ => none
termination_by fuel

/-- The entries of a record up to its closing brace. -/
def entries? (fuel depth : Nat) (cs : List Char) :
    Option (List (String × Data) × List Char) :=
  match fuel with
  | 0 => none
  | fuel + 1 => do
    let (name, rest) ← string? (skip cs)
    match skip rest with
    | ':' :: rest =>
      let (value, rest) ← value? fuel depth rest
      match skip rest with
      | ',' :: rest =>
        let (entries, rest) ← entries? fuel depth rest
        some ((name, value) :: entries, rest)
      | '\x7d' :: rest => some ([(name, value)], rest)
      | _ => none
    | _ => none
termination_by fuel

end

/-- The value of a complete text. -/
def read? (s : String) : Option Data :=
  let cs := s.toList
  match value? (2 * cs.length + 2) 127 cs with
  | some (d, rest) => if (skip rest).isEmpty then some d else none
  | none => none

/-- Keeps the last of entries with the same name, in a value and all its parts.
`fuel` bounds the depth. -/
def dedup : Nat → Data → Data
  | 0, d => d
  | fuel + 1, .list items => .list (items.map (dedup fuel))
  | fuel + 1, .record entries =>
    .record ((Data.lastEntries entries).map fun (name, d) => (name, dedup fuel d))
  | _, d => d

/-- The value of a complete text, in which the last entry of a name counts. -/
def readLast? (s : String) : Option Data := (read? s).map (dedup 128)

end Paywatch.Json
