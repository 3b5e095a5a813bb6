-- JSON values: their text without spaces, and a reader. Members of an object
-- are sorted by name and the last of equal names stands.
import ColumnStore.Number.JsonText
import ColumnStore.SortedMap

namespace ColumnStore

open ColumnStore.Number

inductive Json where
  | null
  | bool (b : Bool)
  | int (n : Int)
  | float (f : Float)
  | string (s : String)
  | array (items : List Json)
  | object (members : List (String × Json))
  deriving Inhabited

namespace Json

/-! ## Writing -/

def hexDigit (n : Nat) : Char := Nat.digitChar n

/-- Only quotes, backslashes and control characters are escaped. -/
def escapeChar (c : Char) : List Char :=
  if c = '"' then ['\\', '"']
  else if c = '\\' then ['\\', '\\']
  else if c = '\x08' then ['\\', 'b']
  else if c = '\x0c' then ['\\', 'f']
  else if c = '\n' then ['\\', 'n']
  else if c = '\r' then ['\\', 'r']
  else if c = '\t' then ['\\', 't']
  else if c.toNat < 32 then
    ['\\', 'u', '0', '0', hexDigit (c.toNat / 16), hexDigit (c.toNat % 16)]
  else [c]

def quote (s : String) : String := "\"" ++ .ofList (s.toList.flatMap escapeChar) ++ "\""

mutual

/-- The value's text without spaces; a number that is not finite is `null`. -/
def text : Json → String
  | null => "null"
  | bool b => if b then "true" else "false"
  | int n => toString n
  | float f => if f.isFinite then jsonFloat f else "null"
  | string s => quote s
  | array items => "[" ++ ",".intercalate (texts items) ++ "]"
  | object members => "\x7b" ++ ",".intercalate (memberTexts members) ++ "\x7d"

def texts : List Json → List String
  | [] => []
  | j :: rest => j.text :: texts rest

def memberTexts : List (String × Json) → List String
  | [] => []
  | (name, j) :: rest => (quote name ++ ":" ++ j.text) :: memberTexts rest

end

/-! ## Reading -/

/-- The object with these members, sorted, the last of equal names kept. -/
def ofMembers (members : List (String × Json)) : Json :=
  .object (SortedMap.ofList members).entries

def skipSpace (cs : List Char) : List Char :=
  cs.dropWhile fun c => c = ' ' || c = '\n' || c = '\r' || c = '\t'

def hexValue? (c : Char) : Option Nat :=
  if '0' ≤ c ∧ c ≤ '9' then some (c.toNat - 48)
  else if 'a' ≤ c ∧ c ≤ 'f' then some (c.toNat - 87)
  else if 'A' ≤ c ∧ c ≤ 'F' then some (c.toNat - 55)
  else none

/-- Four hexadecimal digits and the text behind them. -/
def readUnit : List Char → Option (Nat × List Char)
  | a :: b :: c :: d :: rest => do
    let a ← hexValue? a
    let b ← hexValue? b
    let c ← hexValue? c
    let d ← hexValue? d
    pure (((a * 16 + b) * 16 + c) * 16 + d, rest)
  | _ => none

def unescapeChar (c : Char) : Option Char :=
  if c = 'b' then some '\x08'
  else if c = 'f' then some '\x0c'
  else if c = 'n' then some '\n'
  else if c = 'r' then some '\r'
  else if c = 't' then some '\t'
  else if c = '"' || c = '\\' || c = '/' then some c
  else none

/-- The text behind an opening quote up to the closing one, read in reverse into `done`. A
pair of surrogates is one character. -/
def readString : Nat → List Char → List Char → Option (String × List Char)
  | 0, _, _ => none
  | fuel + 1, cs, done =>
    match cs with
    | [] => none
    | '"' :: rest => some (.ofList done.reverse, rest)
    | '\\' :: 'u' :: rest =>
      match readUnit rest with
      | none => none
      | some (u, rest) =>
        if 0xD800 ≤ u && u < 0xDC00 then
          match rest with
          | '\\' :: 'u' :: rest =>
            match readUnit rest with
            | some (v, rest) =>
              if 0xDC00 ≤ v && v < 0xE000 then
                let c := Char.ofNat (0x10000 + (u - 0xD800) * 0x400 + (v - 0xDC00))
                readString fuel rest (c :: done)
              else none
            | none => none
          | _ => none
        else if 0xDC00 ≤ u && u < 0xE000 then none
        else readString fuel rest (Char.ofNat u :: done)
    | '\\' :: c :: rest =>
      match unescapeChar c with
      | some u => readString fuel rest (u :: done)
      | none => none
    | c :: rest => readString fuel rest (c :: done)

def ofNumber : JsonNumber → Json
  | .whole n => .int n
  | .real f => .float f

def isNumberChar (c : Char) : Bool :=
  c.isDigit || c = '-' || c = '+' || c = '.' || c = 'e' || c = 'E'

mutual

/-- One value and the text behind it; `fuel` bounds the number of steps. -/
def readValue : Nat → List Char → Option (Json × List Char)
  | 0, _ => none
  | fuel + 1, cs =>
    match skipSpace cs with
    | 'n' :: 'u' :: 'l' :: 'l' :: rest => some (.null, rest)
    | 't' :: 'r' :: 'u' :: 'e' :: rest => some (.bool true, rest)
    | 'f' :: 'a' :: 'l' :: 's' :: 'e' :: rest => some (.bool false, rest)
    | '"' :: rest => (readString (rest.length + 1) rest []).map fun (s, r) => (.string s, r)
    | '[' :: rest =>
      match skipSpace rest with
      | ']' :: rest => some (.array [], rest)
      | rest => (readItems fuel rest []).map fun (l, r) => (.array l, r)
    | '\x7b' :: rest =>
      match skipSpace rest with
      | '\x7d' :: rest => some (.object [], rest)
      | rest => (readMembers fuel rest []).map fun (l, r) => (ofMembers l, r)
    | rest =>
      (readJsonNumber? (rest.takeWhile isNumberChar)).map fun n =>
        (ofNumber n, rest.dropWhile isNumberChar)

def readItems : Nat → List Char → List Json → Option (List Json × List Char)
  | 0, _, _ => none
  | fuel + 1, cs, done =>
    match readValue fuel cs with
    | none => none
    | some (j, rest) =>
      match skipSpace rest with
      | ',' :: rest => readItems fuel rest (j :: done)
      | ']' :: rest => some ((j :: done).reverse, rest)
      | _ => none

def readMembers : Nat → List Char → List (String × Json) → Option (List (String × Json) × List Char)
  | 0, _, _ => none
  | fuel + 1, cs, done =>
    match skipSpace cs with
    | '"' :: rest =>
      match readString (rest.length + 1) rest [] with
      | none => none
      | some (name, rest) =>
        match skipSpace rest with
        | ':' :: rest =>
          match readValue fuel rest with
          | none => none
          | some (j, rest) =>
            match skipSpace rest with
            | ',' :: rest => readMembers fuel rest ((name, j) :: done)
            | '\x7d' :: rest => some (((name, j) :: done).reverse, rest)
            | _ => none
        | _ => none
    | _ => none

end

/-- The value that the whole text denotes. -/
def ofText? (s : String) : Option Json :=
  match readValue (s.length + 1) s.toList with
  | some (j, rest) => if (skipSpace rest).isEmpty then some j else none
  | none => none

/-- The member of an object under a name. -/
def member? (j : Json) (name : String) : Option Json :=
  match j with
  | .object members => members.lookup name
  | _ => none

end Json

end ColumnStore
