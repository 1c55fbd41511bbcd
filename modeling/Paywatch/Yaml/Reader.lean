import Paywatch.Data.Record
import Paywatch.Yaml.Scalar

/-!
# YAML documents

Reading one YAML document: block and bracketed lists and records, unquoted, quoted and
multi-line texts, comments, anchors. A text with two documents is refused. Unquoted
words stay `Data.plain`, so that whoever reads the value decides what they mean.
-/

namespace Paywatch.Yaml

/-- The text that is left, the column of its first character, and the
values with an anchor. -/
structure Cursor where
  rest : List Char
  column : Nat
  anchors : List (String × Data)

abbrev Scan := StateT Cursor Option

namespace Scan

def fail {α : Type} : Scan α := fun _ => none

def ofOption {α : Type} (a? : Option α) : Scan α := fun c => a?.map fun a => (a, c)

def rest : Scan (List Char) := do return (← get).rest

/-- Goes on at `rest`, later on the same line. -/
def goTo (rest : List Char) : Scan Unit :=
  modify fun c =>
    { c with rest := rest, column := c.column + (c.rest.length - rest.length) }

def step (n : Nat) : Scan Unit :=
  modify fun c => { c with rest := c.rest.drop n, column := c.column + n }

end Scan

/-- Passes over blanks, comments and line ends. At the start of a line outside of
brackets a tab is not passed over. Gives back the column and whether a line ended. -/
def gap (inFlow : Bool) :
    (comment tabs crossed : Bool) → List Char → Nat → List Char × Nat × Bool
  | _, _, crossed, [], column => ([], column, crossed)
  | comment, tabs, crossed, c :: rest, column =>
    if c = '\n' then gap inFlow false inFlow true rest 0
    else if comment then gap inFlow true tabs crossed rest (column + 1)
    else if c = ' ' ∨ (c = '\t' ∧ (inFlow || tabs)) then
      gap inFlow false tabs crossed rest (column + 1)
    else if c = '#' then gap inFlow true tabs crossed rest (column + 1)
    else (c :: rest, column, crossed)

/-- Passes over a gap; tells whether a line ended. -/
def skipGap (inFlow tabs : Bool) : Scan Bool := do
  let c ← get
  let (rest, column, crossed) := gap inFlow false tabs false c.rest c.column
  set { c with rest := rest, column := column }
  return crossed

/-- The document ends here. -/
def atEnd : Scan Bool := do
  let c ← get
  return c.rest.isEmpty || (c.column == 0 && isDocumentMark c.rest)

/-- An item of a block list starts here. -/
def atDash : Scan Bool := do
  match (← get).rest with
  | '-' :: rest => return endsWord rest
  | _ => return false

/-- The name of an entry at the start of the text, with what follows its colon. -/
def name? (cs : List Char) : Option (String × List Char) :=
  let behind (text rest : List Char) : Option (String × List Char) :=
    match rest.dropWhile isGap with
    | ':' :: after => if endsWord after then some (String.ofList text, after) else none
    | _ => none
  match cs with
  | '"' :: _ | '\'' :: _ =>
    (quoted? cs).bind fun (text, rest) =>
      if (cs.take (cs.length - rest.length)).contains '\n' then none else behind text rest
  | _ =>
    if startsWord false cs then
      let (text, rest) := wordLine false cs
      behind text rest
    else none

/-- The name of an anchor, which ends at a blank or a mark. -/
def anchorName? (cs : List Char) : Option (List Char) :=
  let isNameChar (c : Char) : Bool := c.isAlphanum || c == '-' || c == '_'
  let name := cs.takeWhile isNameChar
  let rest := cs.dropWhile isNameChar
  let isMark (c : Char) : Bool :=
    c == '?' || c == ':' || c == ',' || c == ']' || c == '\x7d' || c == '%' || c == '@'
      || c.toNat == 0x60
  if name.isEmpty || !(endsWord rest || (rest.head?.map isMark).getD false) then none
  else some name

mutual

/-- A value inside brackets. -/
def flow (fuel : Nat) : Scan Data := do
  match fuel with
  | 0 => Scan.fail
  | fuel + 1 =>
    let _ ← skipGap true true
    let cs ← Scan.rest
    match cs with
    | [] => Scan.fail
    | '[' :: _ =>
      Scan.step 1
      return .list (← flowItems fuel)
    | '\x7b' :: _ =>
      Scan.step 1
      return .record (← flowEntries fuel)
    | '"' :: _ | '\'' :: _ =>
      match quoted? cs with
      | some (text, rest) =>
        Scan.goTo rest
        return .text (String.ofList text)
      | none => Scan.fail
    | '&' :: rest =>
      let name ← Scan.ofOption (anchorName? rest)
      Scan.step (name.length + 1)
      let value ← flow fuel
      modify fun c => { c with anchors := (String.ofList name, value) :: c.anchors }
      return value
    | '*' :: rest =>
      let name ← Scan.ofOption (anchorName? rest)
      match (← get).anchors.lookup (String.ofList name) with
      | some value =>
        Scan.step (name.length + 1)
        return value
      | none => Scan.fail
    | _ =>
      if startsWord true cs then
        match word? true (-1) (cs.length + 1) cs with
        | some (text, rest, _) =>
          if hasOpenColon text then Scan.fail
          Scan.goTo rest
          return .plain (String.ofList text)
        | none => Scan.fail
      else if cs.head? = some ',' ∨ cs.head? = some ']' ∨ cs.head? = some '\x7d' then
        return .plain ""
      else Scan.fail
termination_by fuel

/-- The items of a bracketed list. -/
def flowItems (fuel : Nat) : Scan (List Data) := do
  match fuel with
  | 0 => Scan.fail
  | fuel + 1 =>
    let _ ← skipGap true true
    match ← Scan.rest with
    | ']' :: _ =>
      Scan.step 1
      return []
    | ',' :: _ => Scan.fail
    | _ =>
      let item ← flow fuel
      let _ ← skipGap true true
      let item ← match ← Scan.rest with
        | ':' :: _ =>
          Scan.step 1
          let value ← flow fuel
          let _ ← skipGap true true
          match item.text? with
          | some name => pure (Data.record [(name, value)])
          | none => Scan.fail
        | _ => pure item
      match ← Scan.rest with
      | ',' :: _ =>
        Scan.step 1
        return item :: (← flowItems fuel)
      | ']' :: _ =>
        Scan.step 1
        return [item]
      | _ => Scan.fail
termination_by fuel

/-- The entries of a bracketed record. -/
def flowEntries (fuel : Nat) : Scan (List (String × Data)) := do
  match fuel with
  | 0 => Scan.fail
  | fuel + 1 =>
    let _ ← skipGap true true
    match ← Scan.rest with
    | '\x7d' :: _ =>
      Scan.step 1
      return []
    | ',' :: _ => Scan.fail
    | _ =>
      let key ← flow fuel
      let _ ← skipGap true true
      let value ← match ← Scan.rest with
        | ':' :: _ =>
          Scan.step 1
          let value ← flow fuel
          let _ ← skipGap true true
          pure value
        | _ => pure (Data.plain "")
      match key.text? with
      | none => Scan.fail
      | some name =>
        match ← Scan.rest with
        | ',' :: _ =>
          Scan.step 1
          return (name, value) :: (← flowEntries fuel)
        | '\x7d' :: _ =>
          Scan.step 1
          return [(name, value)]
        | _ => Scan.fail
termination_by fuel

end

mutual

/-- A value outside of brackets, indented deeper than `indent`. With `fresh` a list or
record may start at this column. -/
def node (fuel : Nat) (indent : Int) (fresh : Bool) : Scan Data := do
  match fuel with
  | 0 => Scan.fail
  | fuel + 1 =>
    let crossed ← skipGap false (!fresh)
    let fresh := fresh || crossed
    let c ← get
    if (← atEnd) || (crossed && (c.column : Int) ≤ indent) then return .plain ""
    else
      let cs := c.rest
      match cs with
      | '&' :: rest =>
        let name ← Scan.ofOption (anchorName? rest)
        Scan.step (name.length + 1)
        let value ← node fuel indent false
        modify fun c => { c with anchors := (String.ofList name, value) :: c.anchors }
        return value
      | '!' :: _ =>
        let tag := cs.takeWhile fun c => !(isGap c || c == '\n')
        Scan.step tag.length
        let value ← node fuel indent false
        match String.ofList tag, value with
        | "!!str", .plain word => return .text word
        | _, value => return value
      | '|' :: rest | '>' :: rest =>
        match block? (cs.head? == some '>') indent rest with
        | some (text, rest) =>
          Scan.goTo rest
          return .text (String.ofList text)
        | none => Scan.fail
      | '[' :: _ | '\x7b' :: _ | '*' :: _ => flow (2 * cs.length + 2)
      | _ =>
        if ← atDash then
          if fresh then return .list (← items fuel c.column) else Scan.fail
        else if fresh && (name? cs).isSome then return .record (← entries fuel c.column)
        else
          match cs with
          | '"' :: _ | '\'' :: _ => flow (2 * cs.length + 2)
          | _ =>
            if startsWord false cs then
              match word? false indent (cs.length + 1) cs with
              | some (text, rest, _) =>
                Scan.goTo rest
                return .plain (String.ofList text)
              | none => Scan.fail
            else Scan.fail
termination_by fuel

/-- The items of a block list at a column. -/
def items (fuel : Nat) (column : Nat) : Scan (List Data) := do
  match fuel with
  | 0 => Scan.fail
  | fuel + 1 =>
    Scan.step 1
    let item ← node fuel column true
    let _ ← skipGap false true
    let c ← get
    if ← atEnd then return [item]
    else if c.column = column then
      if ← atDash then return item :: (← items fuel column) else return [item]
    else if c.column < column then return [item]
    else Scan.fail
termination_by fuel

/-- The entries of a block record at a column. -/
def entries (fuel : Nat) (column : Nat) : Scan (List (String × Data)) := do
  match fuel with
  | 0 => Scan.fail
  | fuel + 1 =>
    match name? (← Scan.rest) with
    | none => Scan.fail
    | some (name, after) =>
      Scan.goTo after
      let crossed ← skipGap false true
      let c ← get
      let value ←
        if ← atEnd then pure (Data.plain "")
        else if crossed then
          if column < c.column then node fuel column true
          else if c.column = column && (← atDash) then
            pure (Data.list (← items fuel column))
          else pure (Data.plain "")
        else node fuel column false
      let _ ← skipGap false true
      let c ← get
      if ← atEnd then return [(name, value)]
      else if c.column = column then
        if (name? c.rest).isSome then return (name, value) :: (← entries fuel column)
        else Scan.fail
      else if c.column < column then return [(name, value)]
      else Scan.fail
termination_by fuel

end

/-- Line ends in one spelling, without the mark of byte order. -/
def normalLines : List Char → List Char
  | [] => []
  | '\r' :: '\n' :: rest => '\n' :: normalLines rest
  | '\r' :: rest => '\n' :: normalLines rest
  | c :: rest => c :: normalLines rest

/-- A character that may stand in a document. -/
def isAllowed (c : Char) : Bool :=
  let n := c.toNat
  n == 9 || n == 10 || n == 13 || (32 ≤ n && n ≤ 126) || n == 0x85 ||
    (0xA0 ≤ n && n ≤ 0xD7FF) || (0xE000 ≤ n && n ≤ 0xFFFD && n != 0xFEFF) || 0x10000 ≤ n

/-- The line says which version of the notation is used, and it is one
that is known here. -/
def isVersion (line : List Char) : Bool :=
  let behind := (line.drop 4).dropWhile isGap
  let after := (behind.drop 3).dropWhile isGap
  line.take 4 == ['Y', 'A', 'M', 'L'] && isGap (line.getD 4 'x')
    && (behind.take 3 == ['1', '.', '1'] || behind.take 3 == ['1', '.', '2'])
    && (after.isEmpty || (isGap (behind.getD 3 'x') && after.head? == some '#'))

/-- The line gives a short name to tags. -/
def isTagName (line : List Char) : Bool :=
  line.take 3 == ['T', 'A', 'G'] && isGap (line.getD 3 'x')

/-- Passes over the lines in front of a document that are about it: at most one version,
and names of tags. Tells whether there were any. -/
def preamble : Nat → (version any : Bool) → Scan Bool
  | 0, _, _ => Scan.fail
  | fuel + 1, version, any => do
    let _ ← skipGap false true
    match ← Scan.rest with
    | '%' :: rest =>
      let line := rest.takeWhile (· != '\n')
      if isVersion line && !version then
        Scan.goTo (rest.drop line.length)
        preamble fuel true true
      else if isTagName line then
        Scan.goTo (rest.drop line.length)
        preamble fuel version true
      else Scan.fail
    | _ => return any

/-- The one document of a text. -/
def document : Scan Data := do
  let announced ← preamble ((← Scan.rest).length + 1) false false
  let cs ← Scan.rest
  let c ← get
  let marked := c.column == 0 && cs.take 3 == ['-', '-', '-'] && endsWord (cs.drop 3)
  if announced && !marked then Scan.fail
  if marked then Scan.step 3
  let value ← node (2 * cs.length + 2) (-1) (!marked)
  let _ ← skipGap false true
  let cs ← Scan.rest
  let c ← get
  if c.column = 0 && cs.take 3 == ['.', '.', '.'] && endsWord (cs.drop 3) then Scan.step 3
  let _ ← skipGap false true
  if (← Scan.rest).isEmpty then return value else Scan.fail

/-- The value of a text with one document. -/
def read? (s : String) : Option Data :=
  let cs := match s.toList with
    | c :: rest => if c.toNat = 0xFEFF then rest else c :: rest
    | [] => []
  if cs.all isAllowed then
    (document.run ⟨normalLines cs, 0, []⟩).map (·.1)
  else none

end Paywatch.Yaml
