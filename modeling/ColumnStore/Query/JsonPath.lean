-- Paths into JSON columns: keys parted by dots, each with any number of array
-- indices in brackets. Indices start at zero and negative ones count from the
-- end.
import ColumnStore.Fault
import ColumnStore.Text.Search

namespace ColumnStore

open ColumnStore.Text

inductive JsonSegment where
  | key (name : String)
  | index (i : Int64)
  deriving DecidableEq, Repr

namespace JsonPath

/-- The parts between the dots. -/
def parts : List Char → List (List Char)
  | [] => [[]]
  | c :: cs =>
    if c = '.' then [] :: parts cs
    else match parts cs with
      | [] => [[c]]
      | p :: ps => (c :: p) :: ps

/-- Bracket groups up to the end of the text, the first bracket being its first character. -/
def readIndices : List Char → Except QueryCause (List JsonSegment)
  | [] => .ok []
  | _ :: cs =>
    match _h : cs.dropWhile (· ≠ ']') with
    | [] => .error .unclosedIndex
    | _ :: rest =>
      match readInt64 (trim (cs.takeWhile (· ≠ ']'))) with
      | .error _ => .error .indexSyntax
      | .ok i =>
        if rest.isEmpty || rest.head? = some '[' then (.index i :: ·) <$> readIndices rest
        else .error .textAfterIndex
termination_by cs => cs.length
decreasing_by
  have := length_dropWhile_le (· ≠ ']') cs
  simp_all only [List.length_cons]
  omega

/-- A key and its indices. -/
def readPart (part : List Char) : Except QueryCause (List JsonSegment) :=
  let key := part.takeWhile (· ≠ '[')
  if key.isEmpty then .error .emptyKey
  else (.key (.ofList key) :: ·) <$> readIndices (part.dropWhile (· ≠ '['))

def readParts : List (List Char) → Except QueryCause (List JsonSegment)
  | [] => .ok []
  | p :: ps => do
    let first ← readPart p
    let rest ← readParts ps
    return first ++ rest

/-- The segments of a path's text. -/
def read (path : String) : Outcome (List JsonSegment) :=
  (readParts (parts path.toList)).mapError (.inexpressible ("JSON path '" ++ path ++ "'"))

end JsonPath

end ColumnStore
