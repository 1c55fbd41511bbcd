import Paywatch.Data.Record
import Paywatch.Chain.Document

/-!
# Plain fields

Scripts are read with forbearance: a field that is missing or of another kind counts as
empty, zero or false, or as what the reader names. Fields that hold a value of the
domain are read as strictly as in any other document, and refused if that fails.
-/

namespace Paywatch.Script

/-- A result, or the fault that takes its place. -/
abbrev Answer (α : Type) := Except Data α

/-- A fault that has a name and says no more. -/
def fault (name : String) : Data := .record [("error", .text name)]

/-- The value of an entry, or null. -/
def field (d : Data) (name : String) : Data :=
  match d with
  | .record entries => ((entries.find? (·.1 == name)).map (·.2)).getD .null
  | _ => .null

def has (d : Data) (name : String) : Bool :=
  match d with
  | .record entries => entries.any (·.1 == name)
  | _ => false

def asText? : Data → Option String
  | .text s => some s
  | _ => none

def asWord? : Data → Option UInt64
  | .int n => if 0 ≤ n && n < UInt64.size then some (UInt64.ofNat n.toNat) else none
  | _ => none

def asInt? : Data → Option Int
  | .int n =>
      if Int64.minValue.toInt ≤ n && n ≤ Int64.maxValue.toInt then some n else none
  | _ => none

def text? (d : Data) (name : String) : Option String := asText? (field d name)
def text (d : Data) (name : String) : String := (text? d name).getD ""
def word? (d : Data) (name : String) : Option UInt64 := asWord? (field d name)
def word (d : Data) (name : String) (missing : UInt64) : UInt64 :=
  (word? d name).getD missing
def nat (d : Data) (name : String) (missing : UInt64) : Nat := (word d name missing).toNat
def int64 (d : Data) (name : String) : Int64 :=
  Int64.ofInt ((asInt? (field d name)).getD 0)

def flag (d : Data) (name : String) : Bool :=
  match field d name with
  | .bool b => b
  | _ => false

def listOf (d : Data) : List Data :=
  match d with
  | .list items => items
  | _ => []

def list (d : Data) (name : String) : List Data := listOf (field d name)

/-- The chain that something is about; chain 1 if nothing is said. -/
def chain (d : Data) : ChainId := ⟨word d "chain" 1⟩

/-- A value of the domain, or the fault that it is none. -/
def orRefuse {α : Type} : Option α → Answer α
  | some a => .ok a
  | none => .error (fault "Deserialize")

def typed {α : Type} (read : Data → Option α) (d : Data) : Answer α := orRefuse (read d)

def typedField {α : Type} (d : Data) (name : String) (read : Data → Option α) :
    Answer α :=
  typed read (field d name)

def typedList {α : Type} (d : Data) (name : String) (read : Data → Option α) :
    Answer (List α) :=
  (list d name).mapM (typed read)

/-- A time, with any offset. -/
def timeField (d : Data) (name : String) : Answer Instant :=
  orRefuse (Instant.ofStrict (text d name)).toOption

/-- A record without some of its entries. -/
def without (names : List String) : Data → Data
  | .record entries => .record (entries.filter fun e => !names.contains e.1)
  | d => d

/-- A record with one entry changed. -/
def adjust (name : String) (f : Data → Data) : Data → Data
  | .record entries =>
      .record (entries.map fun e => if e.1 == name then (e.1, f e.2) else e)
  | d => d

/-- The entries of a record. -/
def entriesOf : Data → List (String × Data)
  | .record entries => entries
  | _ => []

/-- Turns the errors of the library into faults. -/
def orFail {ε α : Type} (write : ε → Data) (x : Except ε α) : Answer α := x.mapError write

/-- What is written for a result. -/
def orAnswer (x : Answer Data) : Data :=
  match x with
  | .ok d => d
  | .error d => d

end Paywatch.Script
