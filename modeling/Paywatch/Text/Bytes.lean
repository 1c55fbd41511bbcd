/-!
# Text measured in bytes

Lengths and cuts of text count UTF-8 bytes. A cut that would fall inside a
character is refused.
-/

namespace Paywatch.Text

/-- The number of UTF-8 bytes of a text. -/
def byteCount : List Char → Nat
  | [] => 0
  | c :: cs => c.utf8Size + byteCount cs

/-- Cuts a text after `n` bytes; `none` if the text is shorter or `n`
falls inside a character. -/
def splitBytes? : Nat → List Char → Option (List Char × List Char)
  | 0, cs => some ([], cs)
  | _ + 1, [] => none
  | n + 1, c :: cs =>
    if c.utf8Size ≤ n + 1 then
      (splitBytes? (n + 1 - c.utf8Size) cs).map fun (head, tail) => (c :: head, tail)
    else none
termination_by _ cs => cs.length

/-- The first `n` bytes of a text, if they are whole characters. -/
def takeBytes? (n : Nat) (cs : List Char) : Option (List Char) :=
  (splitBytes? n cs).map Prod.fst

/-- What follows the first `n` bytes of a text, if they are whole characters. -/
def dropBytes? (n : Nat) (cs : List Char) : Option (List Char) :=
  (splitBytes? n cs).map Prod.snd

/-- Removes every leading copy of the two characters `a`, `b`. -/
def dropPairs (a b : Char) : List Char → List Char
  | x :: y :: rest => if x = a ∧ y = b then dropPairs a b rest else x :: y :: rest
  | cs => cs

/-- A character below 128. -/
def isAscii (c : Char) : Bool := c.toNat < 128

end Paywatch.Text
