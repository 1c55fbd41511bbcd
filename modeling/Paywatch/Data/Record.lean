import Paywatch.Data.Basic

/-!
# Records and variants

Reading values with named parts. A record may list its parts by name, in any order and
beside unknown ones, or in a list by position. A variant is told apart by a name: alone,
as the only entry around its value, or in an entry of its own beside its parts.
-/

namespace Paywatch

namespace Data

/-- The parts of a record, ready to be read one by one. -/
structure Parts where
  /-- The part of a name. -/
  find : String → Option Data
  /-- The parts were given in a list. -/
  positional : Bool

/-- The parts with these names. A name may occur once; a list may hold no more parts
than there are names. -/
def parts? (names : List String) (d : Data) : Option Parts :=
  let byName (entries : List (String × Data)) : Option Parts :=
    if names.all fun name => (entries.filter (·.1 == name)).length ≤ 1 then
      some ⟨fun name => (entries.find? (·.1 == name)).map (·.2), false⟩
    else none
  match d with
  | record entries => byName entries
  | plain word => if word == "" then byName [] else none
  | list items =>
    if items.length ≤ names.length then
      some ⟨fun name => ((names.zip items).find? (·.1 == name)).map (·.2), true⟩
    else none
  | _ => none

namespace Parts

variable {α : Type}

/-- A part that has to be there. -/
def need (p : Parts) (name : String) (read : Data → Option α) : Option α :=
  (p.find name).bind read

/-- A part that may be null or, among named parts, missing. -/
def optional (p : Parts) (name : String) (read : Data → Option α) : Option (Option α) :=
  match p.find name with
  | some d => d.option? read
  | none => if p.positional then none else some none

/-- A part that has a value if it is missing. -/
def orElse (p : Parts) (name : String) (missing : α) (read : Data → Option α) :
    Option α :=
  match p.find name with
  | some d => read d
  | none => some missing

end Parts

/-- The value a name stands for. -/
def named? {α : Type} (names : List (String × α)) (name : String) : Option α :=
  (names.find? (·.1 == name)).map (·.2)

/-- A variant without parts: its name, or its name in front of null. -/
def variant? {α : Type} (names : List (String × α)) (d : Data) : Option α :=
  match d with
  | record [(name, null)] => named? names name
  | _ => d.text?.bind (named? names)

/-- A variant with parts: the name in the entry `tag`, and the other parts. In a list
the name comes first. -/
def tagged? (tag : String) (d : Data) : Option (String × Data) :=
  match d with
  | record entries =>
    match entries.filter (·.1 == tag) with
    | [(_, name)] =>
        name.text?.map fun name => (name, record (entries.filter (·.1 != tag)))
    | _ => none
  | list (name :: items) => name.text?.map fun name => (name, list items)
  | _ => none

/-- A variant whose name is the only entry, in front of its value. -/
def wrapped? : Data → Option (String × Data)
  | record [(name, value)] => some (name, value)
  | _ => none

/-- Among entries of one name only the last one counts. -/
def lastEntries : List (String × Data) → List (String × Data)
  | [] => []
  | (name, value) :: rest =>
    if rest.any (·.1 == name) then lastEntries rest else (name, value) :: lastEntries rest

end Data

end Paywatch
