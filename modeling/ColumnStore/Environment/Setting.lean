-- Settings as trees. The name of a setting is a path: a word, and behind it
-- further words after points and positions in brackets, as in `a.b[0]`. A
-- path that is set grows the tables and lists it leads through, and takes the
-- place of what stood there in another shape.
import ColumnStore.SortedMap
import ColumnStore.Text.Integer

namespace ColumnStore

inductive Setting where
  /-- A place of a list that was passed over. -/
  | nothing
  | text (s : String)
  | list (items : List Setting)
  | table (entries : List (String × Setting))
  deriving Inhabited

/-- One step down into a setting. -/
inductive SettingStep where
  | key (name : String)
  | index (i : Int)
  deriving DecidableEq, Repr

namespace SettingStep

/-! ## Reading a path -/

/-- Letters and digits of ASCII, the space, the underscore and the hyphen. -/
def isNameChar (c : Char) : Bool := c.isAlphanum || c = ' ' || c = '_' || c = '-'

def isSpace (c : Char) : Bool := c = ' ' || c = '\t'

def name? (cs : List Char) : Option String :=
  if !cs.isEmpty && cs.all isNameChar then some (.ofList cs) else none

/-- A position, which may have spaces around it and a minus sign but no plus sign. -/
def position? (cs : List Char) : Option Int :=
  let digits := ((cs.dropWhile isSpace).reverse.dropWhile isSpace).reverse
  match digits.head?, Text.readInt64 digits with
  | some '+', _ => none
  | _, .ok i => some i.toInt
  | _, .error _ => none

/-- The text cut before each point and each opening bracket: what stands in front, and the
pieces. -/
def pieces : List Char → List Char × List (List Char)
  | [] => ([], [])
  | c :: cs =>
    let (first, rest) := pieces cs
    if c = '.' || c = '[' then ([], (c :: first) :: rest) else (c :: first, rest)

/-- The step that a piece stands for. -/
def ofPiece? : List Char → Option SettingStep
  | '.' :: cs => (name? cs).map .key
  | '[' :: cs => if cs.getLast? = some ']' then (position? cs.dropLast).map .index else none
  | _ => none

/-- The path that the text denotes. -/
def path? (cs : List Char) : Option (List SettingStep) := do
  let (first, rest) := pieces cs
  return .key (← name? first) :: (← rest.mapM ofPiece?)

/-- The path of a name; one that is no path is a single word. -/
def path (name : String) : List SettingStep := (path? name.toList).getD [.key name]

example : path "a.b[ -2 ]" = [.key "a", .key "b", .index (-2)] := by decide +kernel

example : path "a.b[]" = [.key "a.b[]"] := by decide +kernel

end SettingStep

namespace Setting

/-- What a table holds; a setting of another shape holds nothing by name. -/
def entries : Setting → List (String × Setting)
  | table l => l
  | _ => []

/-- What a list holds; a setting of another shape holds nothing by position. -/
def items : Setting → List Setting
  | list l => l
  | _ => []

/-- A position among `length` places, a negative one counted from the end. -/
def place (length : Nat) (i : Int) : Nat := if i < 0 then length - i.natAbs else i.toNat

/-- The list with `s` at place `n`, after empty places where it was shorter. -/
def putAt (s : Setting) (n : Nat) (l : List Setting) : List Setting :=
  (l ++ List.replicate (n + 1 - l.length) nothing).set n s

/-- The setting with `value` at the end of the path. -/
def put (value : Setting) : List SettingStep → Setting → Setting
  | [], _ => value
  | .key name :: rest, s =>
    let child := (s.entries.lookup name).getD nothing
    table (assign name (put value rest child) s.entries)
  | .index i :: rest, s =>
    let n := place s.items.length i
    list (putAt (put value rest (s.items[n]?.getD nothing)) n s.items)

/-- The table of the texts that these names are set to, one after the other. -/
def ofTexts (texts : List (String × String)) : Setting :=
  texts.foldl (fun s t => put (text t.2) (SettingStep.path t.1) s) (table [])

end Setting

end ColumnStore
