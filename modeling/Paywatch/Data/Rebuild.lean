import Paywatch.Data.Basic

/-!
# Rebuilding data

Data is rebuilt from its leaves upwards: every value that is neither a list nor a record
is replaced, and so is the list of entries of every record.
-/

namespace Paywatch.Data

mutual

def rebuild (leaf : Data → Data) (entries : List (String × Data) → List (String × Data)) :
    Data → Data
  | .list items => .list (rebuildItems leaf entries items)
  | .record es => .record (entries (rebuildEntries leaf entries es))
  | .null => leaf .null
  | .bool b => leaf (.bool b)
  | .int n => leaf (.int n)
  | .float x => leaf (.float x)
  | .text s => leaf (.text s)
  | .plain word => leaf (.plain word)

def rebuildItems (leaf : Data → Data)
    (entries : List (String × Data) → List (String × Data)) : List Data → List Data
  | [] => []
  | d :: rest => rebuild leaf entries d :: rebuildItems leaf entries rest

def rebuildEntries (leaf : Data → Data)
    (entries : List (String × Data) → List (String × Data)) :
    List (String × Data) → List (String × Data)
  | [] => []
  | (name, d) :: rest =>
      (name, rebuild leaf entries d) :: rebuildEntries leaf entries rest

end

end Paywatch.Data
