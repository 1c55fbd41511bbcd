import Paywatch.Data.Rebuild
import Paywatch.Json.Writer
import Paywatch.Ledger.Basic
import Paywatch.Script.Shapes

/-!
# Names

What the program makes up itself, identifiers above all, is written by name in the
answers of a script: orders, routes, trackers and bookings are numbered as they were
made, and every other transfer is named by its dedupe key. The same names stand for the
same things in later steps.
-/

namespace Paywatch.Script

structure Names where
  /-- Identifiers with their names. -/
  ids : List (String × String) := []
  /-- Identifiers of payments with their names. -/
  payments : List (String × String) := []
  orders : Nat := 0
  routes : Nat := 0
  trackers : Nat := 0
  internals : Nat := 0

namespace Names

/-- Writes the name of an identifier wherever the identifier stands; `skip`
characters are left out before. -/
def replaceFrom (found : List (List Char × List Char)) :
    (skip : Nat) → List Char → List Char
  | _, [] => []
  | skip + 1, _ :: cs => replaceFrom found skip cs
  | 0, c :: cs =>
    match found.find? fun (id, _) => id.isPrefixOf (c :: cs) with
    | some (id, name) => name ++ replaceFrom found (id.length - 1) cs
    | none => c :: replaceFrom found 0 cs

/-- A text with names in the place of identifiers. -/
def inText (n : Names) (s : String) : String :=
  let found := (n.ids ++ n.payments).map fun (id, name) => (id.toList, name.toList)
  String.ofList (replaceFrom found 0 s.toList)

def inLeaf (n : Names) : Data → Data
  | .text s => .text (n.inText s)
  | .int i =>
    match n.payments.find? fun (id, _) => decide (0 ≤ i) &&
      id == Text.decimal i.toNat with
    | some (_, name) => .text name
    | none => .int i
  | d => d

/-- Data with names in the place of identifiers. -/
def inData (n : Names) (d : Data) : Data := d.rebuild n.inLeaf id

/-- The identifier that has a name. -/
def idOf (n : Names) (name : String) : String :=
  ((n.ids.find? (·.2 == name)).map (·.1)).getD name

/-- The name of the identifier of the payments for a route. -/
def paymentName (route : String) : String := "identifier(" ++ route ++ ")"

/-- The identifier of the payments for a route that has a name. -/
def paymentOf? (n : Names) (route : String) : Option UInt64 :=
  let named := n.payments.find? fun entry => entry.2 == paymentName route
  named.bind fun entry =>
    (Text.Digits.readUnsigned 10 UInt64.size entry.1.toList).map UInt64.ofNat

/-- The data with a name in one field read as the identifier. -/
def resolve (n : Names) (name : String) (d : Data) : Data :=
  adjust name (fun
    | .text s => .text (n.idOf s)
    | d => d) d

/-- Gives a name to an identifier. -/
def add (n : Names) (id kind : String) (number : Nat) : Names :=
  { n with ids := n.ids ++ [(id, kind ++ "#" ++ Text.decimal number)] }

def addOrder (n : Names) (id : OrderId) : Names :=
  { n with orders := n.orders + 1 }.add id.text "order" (n.orders + 1)

def addRoute (n : Names) (r : Route) : Names :=
  let n := { n with routes := n.routes + 1 }.add r.id.text "route" (n.routes + 1)
  match r.destination with
  | .raiden _ _ identifier =>
    let name := paymentName ("route#" ++ Text.decimal n.routes)
    { n with payments := n.payments ++ [(Text.decimalWord identifier, name)] }
  | .blockchain .. => n

def addTracker (n : Names) (id : TrackerId) : Names :=
  { n with trackers := n.trackers + 1 }.add id.text "tracker" (n.trackers + 1)

/-- Gives a transfer its name, unless it has one. -/
def addTransfer (n : Names) (t : Transfer) : Names :=
  if n.ids.any (·.1 == t.id.text) then n
  else
    match t.origin with
    | .internal _ =>
      { n with internals := n.internals + 1 }.add t.id.text "internal" (n.internals + 1)
    | _ => { n with ids := n.ids ++ [(t.id.text, n.inText t.dedupeKey)] }

/-- Names all transfers of a ledger. -/
def addTransfers (n : Names) (l : Ledger) : Names :=
  l.transfers.values.foldl addTransfer n

/-- The stored transfer with a name or a dedupe key. -/
def transfer? (n : Names) (l : Ledger) (name : String) : Option Transfer :=
  (l.transfers.values.find? fun t => t.id.text == n.idOf name).or (l.transferByKey name)

/-- Data in which the entries of records come in the order of their names. -/
def inOrder (d : Data) : Data := d.rebuild id (sortBy fun a b => a.1 < b.1)

/-- A list of values in the order of their texts. -/
def sorted (n : Names) (items : List Data) : Data :=
  let texts := (items.map n.inData).map fun d => (Json.write (inOrder d), d)
  .list ((sortBy (fun a b => a.1 < b.1) texts).map (·.2))

end Names

end Paywatch.Script
