import Paywatch.Data.Basic

/-!
# YAML scalars

The texts that a YAML document is made of: unquoted words, quoted texts and
blocks of lines. Each reader takes the characters that are left and gives back
what it read and what follows.
-/

namespace Paywatch.Yaml

def isGap (c : Char) : Bool := c == ' ' || c == '\t'

/-- A blank, the end of the line or the end of the text comes next. -/
def endsWord : List Char → Bool
  | [] => true
  | c :: _ => isGap c || c == '\n'

/-- Characters that end a word inside brackets. -/
def isFlowMark (c : Char) : Bool :=
  c == ',' || c == '[' || c == ']' || c == '\x7b' || c == '\x7d'

/-- The line starts with the mark of a document's start or end. -/
def isDocumentMark (cs : List Char) : Bool :=
  match cs with
  | '-' :: '-' :: '-' :: rest => endsWord rest
  | '.' :: '.' :: '.' :: rest => endsWord rest
  | _ => false

/-- The unquoted text up to the end of the line, a comment, a colon that ends a
name, or, inside brackets, a mark. Gives back the text without the blanks at its
end, and what follows them. -/
def wordLine (inFlow : Bool) : List Char → List Char × List Char
  | [] => ([], [])
  | c :: rest =>
    if c = '\n' then ([], c :: rest)
    else if c = ':' ∧ endsWord rest then ([], c :: rest)
    else if inFlow && isFlowMark c then ([], c :: rest)
    else if isGap c then
      match wordLine inFlow rest with
      | ([], after) => ([], after)
      | (text, after) =>
          if text.head? = some '#' then ([], rest.dropWhile isGap) else (c :: text, after)
    else
      let (text, after) := wordLine inFlow rest
      (c :: text, after)

/-- A colon stands at the end or in front of a question mark. Inside
brackets no word may be so. -/
def hasOpenColon : List Char → Bool
  | [] => false
  | [c] => c == ':'
  | c :: d :: rest => (c == ':' && d == '?') || hasOpenColon (d :: rest)

/-- An unquoted word may start with this. -/
def startsWord (inFlow : Bool) (cs : List Char) : Bool :=
  match cs with
  | [] => false
  | c :: rest =>
    if c = '-' then !endsWord rest
    else if c = '?' ∨ c = ':' then !inFlow && !endsWord rest
    else !(isGap c || c == '\n' || isFlowMark c || c == '#' || c == '&'
      || c == '*' || c == '!' || c == '|' || c == '>' || c == '\'' || c == '"'
      || c == '%' || c == '@' || c.toNat == 0x60)

/-- Blank lines and the indentation of the line after them: how many line ends were
passed, the width of the indentation, whether a tab stands in it, and what follows. -/
def lineGap :
    (lines width : Nat) → (tab : Bool) → List Char → Nat × Nat × Bool × List Char
  | lines, width, tab, [] => (lines, width, tab, [])
  | lines, width, tab, c :: rest =>
    if c = '\n' then lineGap (lines + 1) 0 false rest
    else if c = ' ' then lineGap lines (width + 1) tab rest
    else if c = '\t' then lineGap lines (width + 1) true rest
    else (lines, width, tab, c :: rest)

/-- What stands for so many line ends between two parts of a folded text. -/
def folded (lines : Nat) : List Char :=
  if lines ≤ 1 then [' '] else List.replicate (lines - 1) '\n'

/-- An unquoted text that may go on over lines indented deeper than `indent`. Gives back
the text, what follows, and whether the text went over a line end. -/
def word? (inFlow : Bool) (indent : Int) :
    Nat → List Char → Option (List Char × List Char × Bool)
  | 0, _ => none
  | fuel + 1, cs =>
    let (text, rest) := wordLine inFlow cs
    match rest with
    | '\n' :: _ =>
      let (lines, width, tab, after) := lineGap 0 0 false rest
      let goesOn := !after.isEmpty && after.head? != some '#'
        && (inFlow || (indent < width && !tab)) && !(width == 0 && isDocumentMark after)
        && !(after.head? == some ':' && endsWord (after.drop 1))
        && !(inFlow && (after.head?.map isFlowMark).getD false)
      if goesOn then
        (word? inFlow indent fuel after).map fun (more, rest, _) =>
          (text ++ folded lines ++ more, rest, true)
      else some (text, rest, false)
    | _ => some (text, rest, false)

/-- The rest of a text in single quotes, where a quote is written twice. -/
def single? : Nat → List Char → Option (List Char × List Char)
  | 0, _ => none
  | fuel + 1, cs =>
    match cs with
    | [] => none
    | '\'' :: '\'' :: rest =>
        (single? fuel rest).map fun (text, rest) => ('\'' :: text, rest)
    | '\'' :: rest => some ([], rest)
    | c :: rest =>
      if isGap c || c == '\n' then
        let gap := (c :: rest).takeWhile isGap
        let (lines, _, _, after) := lineGap 0 0 false (c :: rest)
        if lines = 0 then
          (single? fuel ((c :: rest).drop gap.length)).map fun (text, rest) =>
            (gap ++ text, rest)
        else (single? fuel after).map fun (text, rest) => (folded lines ++ text, rest)
      else (single? fuel rest).map fun (text, rest) => (c :: text, rest)

/-- The character that a number in hexadecimal digits stands for. -/
def numbered? (width : Nat) (cs : List Char) : Option (Char × List Char) :=
  let digits := cs.take width
  if digits.length = width then
    (Text.Digits.read 16 digits).bind fun n =>
      if n < 0xD800 ∨
        (0xE000 ≤ n ∧ n < 0x110000) then some (Char.ofNat n, cs.drop width) else none
  else none

/-- The character behind a backslash. -/
def escape? : List Char → Option (Char × List Char)
  | [] => none
  | c :: rest =>
    match c with
    | '0' => some (Char.ofNat 0, rest)
    | 'a' => some ('\x07', rest)
    | 'b' => some ('\x08', rest)
    | 't' => some ('\t', rest)
    | '\t' => some ('\t', rest)
    | 'n' => some ('\n', rest)
    | 'v' => some ('\x0b', rest)
    | 'f' => some ('\x0c', rest)
    | 'r' => some ('\r', rest)
    | 'e' => some ('\x1b', rest)
    | ' ' => some (' ', rest)
    | '"' => some ('"', rest)
    | '/' => some ('/', rest)
    | '\\' => some ('\\', rest)
    | 'N' => some (Char.ofNat 0x85, rest)
    | '_' => some (Char.ofNat 0xA0, rest)
    | 'L' => some (Char.ofNat 0x2028, rest)
    | 'P' => some (Char.ofNat 0x2029, rest)
    | 'x' => numbered? 2 rest
    | 'u' => numbered? 4 rest
    | 'U' => numbered? 8 rest
    | _ => none

/-- The rest of a text in double quotes. -/
def double? : Nat → List Char → Option (List Char × List Char)
  | 0, _ => none
  | fuel + 1, cs =>
    match cs with
    | [] => none
    | '"' :: rest => some ([], rest)
    | '\\' :: '\n' :: rest =>
      let (lines, _, _, after) := lineGap 0 0 false rest
      (double? fuel after).map fun (text, rest) =>
        (List.replicate lines '\n' ++ text, rest)
    | '\\' :: rest =>
      (escape? rest).bind fun (c, rest) =>
        (double? fuel rest).map fun (text, rest) => (c :: text, rest)
    | c :: rest =>
      if isGap c || c == '\n' then
        let gap := (c :: rest).takeWhile isGap
        let (lines, _, _, after) := lineGap 0 0 false (c :: rest)
        if lines = 0 then
          (double? fuel ((c :: rest).drop gap.length)).map fun (text, rest) =>
            (gap ++ text, rest)
        else (double? fuel after).map fun (text, rest) => (folded lines ++ text, rest)
      else (double? fuel rest).map fun (text, rest) => (c :: text, rest)

/-- A quoted text from its opening quote on. -/
def quoted? (cs : List Char) : Option (List Char × List Char) :=
  match cs with
  | '\'' :: rest => single? (rest.length + 1) rest
  | '"' :: rest => double? (rest.length + 1) rest
  | _ => none

/-- What happens to the line ends that close a block of lines. -/
inductive Chomp where
  | clip | strip | keep
deriving DecidableEq

/-- The marks behind the first character of a block of lines: the indentation, if it is
given, and the treatment of its end. -/
def blockHeader (cs : List Char) : Option (Option Nat × Chomp × List Char) :=
  let chomp (c : Char) : Option Chomp :=
    if c = '+' then some .keep else if c = '-' then some .strip else none
  let width (c : Char) : Option Nat :=
    if '1' ≤ c ∧ c ≤ '9' then some (c.toNat - '0'.toNat) else none
  let (given, ending, rest) : Option Nat × Chomp × List Char :=
    match cs with
    | a :: b :: rest =>
      match chomp a, width b with
      | some e, some w => (some w, e, rest)
      | some e, none => (none, e, b :: rest)
      | none, _ =>
        match width a, chomp b with
        | some w, some e => (some w, e, rest)
        | some w, none => (some w, .clip, b :: rest)
        | none, _ => (none, .clip, cs)
    | [a] =>
        (width a, (chomp a).getD .clip,
          if (chomp a).isSome || (width a).isSome then [] else cs)
    | [] => (none, .clip, [])
  let after := rest.dropWhile isGap
  let after := if after.head? = some '#' then after.dropWhile (· != '\n') else after
  match after with
  | [] => some (given, ending, [])
  | '\n' :: after => some (given, ending, after)
  | _ => none

/-- The lines of a block: those indented by at least `width`, without their
indentation, and blank ones. -/
def blockLines (width : Nat) : Nat → List Char → List (List Char) × List Char
  | 0, cs => ([], cs)
  | fuel + 1, cs =>
    if cs.isEmpty then ([], [])
    else
      let line := cs.takeWhile (· != '\n')
      let rest := (cs.drop line.length).drop 1
      let spaces := (line.takeWhile (· == ' ')).length
      if spaces = line.length then
        let (lines, after) := blockLines width fuel rest
        (line.drop width :: lines, after)
      else if width ≤ spaces then
        let (lines, after) := blockLines width fuel rest
        (line.drop width :: lines, after)
      else ([], cs)

/-- Joins lines by line ends, or, folded, by spaces where neither
neighbour starts with a blank. -/
def joinLines (fold : Bool) : List (List Char) → List Char
  | [] => []
  | [line] => line
  | line :: next :: rest =>
    let startsBlank (l : List Char) : Bool := (l.head?.map isGap).getD false
    let tail := joinLines fold (next :: rest)
    if fold && !line.isEmpty && !startsBlank line then
      if next.isEmpty then line ++ tail
      else if startsBlank next then line ++ '\n' :: tail
      else line ++ ' ' :: tail
    else line ++ '\n' :: tail

/-- A block of lines from behind its first character on. -/
def block? (fold : Bool) (indent : Int) (cs : List Char) :
    Option (List Char × List Char) :=
  match blockHeader cs with
  | none => none
  | some (given, ending, rest) =>
    let least := (indent + 1).toNat
    let (_, found, _, after) := lineGap 0 0 false rest
    let width := match given with
      | some w => (max indent 0).toNat + w
      | none => max least (if after.isEmpty then least else found)
    let (lines, after) := blockLines width (rest.length + 1) rest
    let body := (lines.reverse.dropWhile (·.isEmpty)).reverse
    let blank := lines.length - body.length
    let text := joinLines fold body
    let text := match ending with
      | .strip => text
      | .clip => if body.isEmpty then [] else text ++ ['\n']
      | .keep =>
          (if body.isEmpty then [] else text ++ ['\n']) ++ List.replicate blank '\n'
    some (text, '\n' :: after)

end Paywatch.Yaml
