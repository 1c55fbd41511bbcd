/-!
# Sortable identifiers

Identifiers of 128 bits whose first 48 bits are the millisecond of their creation,
written as 26 characters of Crockford's base 32. Reading takes either letter case and
drops the two bits that 26 characters hold beyond 128.
-/

namespace Paywatch

structure Ulid where
  value : Nat
  value_lt : value < Nat.pow 2 128
deriving DecidableEq

namespace Ulid

/-- Why a text is no identifier. -/
inductive ReadError where
  | invalidLength
  | invalidChar
deriving DecidableEq, Repr

def ReadError.message : ReadError → String
  | invalidLength => "invalid length"
  | invalidChar => "invalid character"

def alphabet : List Char := "0123456789ABCDEFGHJKMNPQRSTVWXYZ".toList

/-- The character for five bits. -/
def charOf (n : Nat) : Char := alphabet[n % 32]?.getD '0'

/-- The five bits of a character of either case. -/
def valueOf? (c : Char) : Option Nat :=
  let upper := if 'a' ≤ c ∧ c ≤ 'z' then Char.ofNat (c.toNat - 32) else c
  let i := alphabet.findIdx (· == upper)
  if i < 32 then some i else none

def ofNat (n : Nat) : Ulid := ⟨n % Nat.pow 2 128, Nat.mod_lt _ (by decide)⟩

instance : Inhabited Ulid := ⟨ofNat 0⟩

/-- Reads the characters from left to right, five bits each. -/
def readFrom (n : Nat) : List Char → Option Nat
  | [] => some n
  | c :: cs => (valueOf? c).bind fun v => readFrom (n * 32 + v) cs

def ofText (s : String) : Except ReadError Ulid :=
  if s.utf8ByteSize = 26 then
    match readFrom 0 s.toList with
    | some n => .ok (ofNat n)
    | none => .error .invalidChar
  else .error .invalidLength

def chars (u : Ulid) : List Char :=
  (List.range 26).map fun i => charOf (u.value / Nat.pow 32 (25 - i))

def text (u : Ulid) : String := String.ofList u.chars

instance : Repr Ulid := ⟨fun u _ => repr u.text⟩

/-- The millisecond of creation. -/
def millis (u : Ulid) : Nat := u.value / Nat.pow 2 80

/-- The identifier number `n` of those made at a millisecond. -/
def make (millis n : Nat) : Ulid := ofNat (millis * Nat.pow 2 80 + n % Nat.pow 2 80)

instance : LT Ulid := ⟨fun a b => a.value < b.value⟩
instance : LE Ulid := ⟨fun a b => a.value ≤ b.value⟩
instance (a b : Ulid) : Decidable (a < b) :=
  inferInstanceAs (Decidable (a.value < b.value))
instance (a b : Ulid) : Decidable (a ≤ b) :=
  inferInstanceAs (Decidable (a.value ≤ b.value))

end Ulid

/-- What an identifier names. -/
inductive Entity where
  | transfer | order | route | tracker | deposit
deriving DecidableEq, Repr

/-- The identifier of one kind of thing. -/
structure Id (entity : Entity) where
  ulid : Ulid
deriving DecidableEq, Repr

namespace Id

variable {entity : Entity}

instance : Inhabited (Id entity) := ⟨⟨default⟩⟩
instance : LT (Id entity) := ⟨fun a b => a.ulid < b.ulid⟩
instance : LE (Id entity) := ⟨fun a b => a.ulid ≤ b.ulid⟩
instance (a b : Id entity) : Decidable (a < b) :=
  inferInstanceAs (Decidable (a.ulid < b.ulid))
instance (a b : Id entity) : Decidable (a ≤ b) :=
  inferInstanceAs (Decidable (a.ulid ≤ b.ulid))

def text (id : Id entity) : String := id.ulid.text

end Id

abbrev TransferId := Id .transfer
abbrev OrderId := Id .order
abbrev RouteId := Id .route
abbrev TrackerId := Id .tracker
abbrev DepositId := Id .deposit

end Paywatch
