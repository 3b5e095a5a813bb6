-- Column types read back from the store's syntax. What a value type has no
-- place for is dropped: precisions, lengths, time zones and `LowCardinality`.
-- Arguments are split at the commas that stand outside parentheses and quotes.
import ColumnStore.Fault
import ColumnStore.Text.Search
import ColumnStore.Types.ValueType

namespace ColumnStore

open ColumnStore.Text

namespace TypeText

/-! ## Splitting arguments -/

/-- Where a text stands: outside quotes, inside them, or behind a backslash inside them. -/
inductive Place where
  | plain
  | quoted
  | escaped
  deriving DecidableEq, Repr

/-- The place and the depth of parentheses behind one more character. -/
def advance (place : Place) (depth : Nat) (c : Char) : Place × Nat :=
  match place with
  | .escaped => (.quoted, depth)
  | .quoted => (if c = '\\' then .escaped else if c = '\'' then .plain else .quoted, depth)
  | .plain =>
    if c = '\'' then (.quoted, depth)
    else if c = '(' then (.plain, depth + 1)
    else if c = ')' then (.plain, depth - 1)
    else (.plain, depth)

/-- The pieces between the commas outside parentheses and quotes. -/
def pieces (place : Place) (depth : Nat) : List Char → List (List Char)
  | [] => [[]]
  | c :: cs =>
    if place = .plain ∧ depth = 0 ∧ c = ',' then [] :: pieces .plain 0 cs
    else
      match pieces (advance place depth c).1 (advance place depth c).2 cs with
      | [] => [[c]]
      | p :: ps => (c :: p) :: ps

/-- The arguments without the blanks around them; an empty one at the end does not count. -/
def splitArguments (args : List Char) : List (List Char) :=
  let ps := (pieces .plain 0 args).map trim
  if ps.getLast? = some [] then ps.dropLast else ps

theorem length_of_mem_pieces {place : Place} {depth : Nat} {cs p : List Char}
    (h : p ∈ pieces place depth cs) : p.length ≤ cs.length := by
  induction cs generalizing place depth p with
  | nil =>
    simp only [pieces, List.mem_singleton] at h
    simp [h]
  | cons c cs ih =>
    unfold pieces at h
    split at h
    · rcases List.mem_cons.mp h with rfl | h
      · simp
      · exact Nat.le_succ_of_le (ih h)
    · split at h
      · simp only [List.mem_singleton] at h
        simp [h]
      · rename_i q qs heq
        rcases List.mem_cons.mp h with rfl | h
        · have := ih (p := q) (heq ▸ List.mem_cons_self)
          simpa using this
        · exact Nat.le_succ_of_le (ih (p := p) (heq ▸ List.mem_cons_of_mem _ h))

theorem length_of_mem_splitArguments {args p : List Char} (h : p ∈ splitArguments args) :
    p.length ≤ args.length := by
  have key : ∀ q ∈ (pieces .plain 0 args).map trim, q.length ≤ args.length := by
    intro q hq
    obtain ⟨r, hr, rfl⟩ := List.mem_map.mp hq
    exact Nat.le_trans (length_trim_le r) (length_of_mem_pieces hr)
  unfold splitArguments at h
  simp only at h
  split at h
  · exact key p (List.dropLast_subset _ h)
  · exact key p h

/-! ## The parts of an argument -/

def trimChar (x : Char) (cs : List Char) : List Char :=
  ((cs.dropWhile (· = x)).reverse.dropWhile (· = x)).reverse

/-- A name, if one stands in front of the type, and the type. -/
def splitName (element : List Char) : Option (List Char) × List Char :=
  let head := element.takeWhile fun c => !isBlank c
  let type := trim (element.dropWhile fun c => !isBlank c)
  if type.isEmpty || head.contains '(' || head.getLast? = some ',' then (none, element)
  else (some (trimChar '\x60' (trimChar '"' head)), type)

theorem length_splitName_le (element : List Char) :
    (splitName element).2.length ≤ element.length := by
  unfold splitName
  simp only
  split
  · exact Nat.le_refl _
  · exact Nat.le_trans (length_trim_le _) (length_dropWhile_le _ _)

/-- The text without the single quotes around it, if it has both. -/
def unquote? : List Char → Option (List Char)
  | '\'' :: cs => if cs.getLast? = some '\'' then some cs.dropLast else none
  | _ => none

/-- The text before the last `=` and the text behind it. -/
def splitCode? (entry : List Char) : Option (List Char × List Char) :=
  let code := (entry.reverse.takeWhile (· ≠ '=')).reverse
  if entry.contains '=' then some (entry.take (entry.length - code.length - 1), code) else none

/-- A member of an enumeration: a quoted name, `=` and a code. -/
def readMember (type : String) (entry : List Char) : Outcome EnumMember :=
  match splitCode? entry with
  | none => .error (.mapping type (.memberWithoutCode (.ofList entry)))
  | some (name, code) =>
    match unquote? (trim name) with
    | none => .error (.mapping type (.unquotedMember (.ofList (trim name))))
    | some inner =>
      match readInt64 (trim code) with
      | .error f => .error (.mapping type (.memberCode (.ofList entry) f))
      | .ok code =>
        let name := replacePair '\\' '\\' '\\' (replacePair '\\' '\'' '\'' inner)
        .ok ⟨.ofList name, code⟩

/-! ## The outermost type -/

/-- The types that need no arguments; any that they have are dropped. -/
def scalar? (name : String) : Option ValueType :=
  match name with
  | "Bool" | "Boolean" => some .bool
  | "Int8" => some .int8
  | "Int16" => some .int16
  | "Int32" => some .int32
  | "Int64" => some .int64
  | "Int128" => some .int128
  | "UInt8" => some .uint8
  | "UInt16" => some .uint16
  | "UInt32" => some .uint32
  | "UInt64" => some .uint64
  | "UInt128" => some .uint128
  | "Int256" | "UInt256" => some .bigInteger
  | "Float32" => some .float32
  | "Float64" => some .float64
  | "Decimal" | "Decimal32" | "Decimal64" | "Decimal128" | "Decimal256" => some .decimal
  | "String" | "FixedString" => some .string
  | "Date" | "Date32" => some .date
  | "DateTime" | "DateTime64" => some .dateTime
  | "UUID" => some .uuid
  | "IPv4" => some .ipv4
  | "IPv6" => some .ipv6
  | "JSON" | "Object" => some .json
  | _ => none

/-- A text as a name and, in parentheses, its arguments, which are shorter than the text. -/
inductive Shape (s : List Char) where
  | plain
  | applied (name : String) (args : List Char) (shorter : args.length < s.length)
  | unbalanced

theorem length_dropLast_lt {s rest : List Char} {c : Char}
    (h : s.dropWhile (· ≠ '(') = c :: rest) : rest.dropLast.length < s.length := by
  have h1 : (c :: rest).length ≤ s.length := h ▸ length_dropWhile_le _ s
  simp only [List.length_cons] at h1
  simp only [List.length_dropLast]
  omega

/-- The first opening parenthesis starts the arguments and the last character closes them. -/
def shape (s : List Char) : Shape s :=
  match h : s.dropWhile (· ≠ '(') with
  | [] => .plain
  | _ :: rest =>
    if rest.getLast? = some ')' then
      .applied (.ofList (trim (s.takeWhile (· ≠ '(')))) rest.dropLast (length_dropLast_lt h)
    else .unbalanced

end TypeText

open TypeText in
/-- The value type that the text of a column type stands for. -/
def ValueType.read (text : List Char) : Outcome ValueType :=
  let s := trim text
  let type := String.ofList s
  match shape s with
  | .unbalanced => .error (.mapping type .unbalanced)
  | .plain =>
    match scalar? type with
    | some t => .ok t
    | none => .error (.mapping type .unknownType)
  | .applied name args shorter =>
    match scalar? name with
    | some t => .ok t
    | none =>
      have : args.length < text.length :=
        Nat.lt_of_lt_of_le shorter (length_trim_le text)
      match name with
      | "Nullable" => .nullable <$> ValueType.read args
      | "LowCardinality" => ValueType.read args
      | "Array" => .array <$> ValueType.read args
      | "Map" =>
        match hm : splitArguments args with
        | [key, value] => do
          have hk : key.length ≤ args.length := length_of_mem_splitArguments (by simp [hm])
          have hv : value.length ≤ args.length := length_of_mem_splitArguments (by simp [hm])
          return .map (← ValueType.read key) (← ValueType.read value)
        | _ => .error (.mapping type .mapArguments)
      | "Tuple" => do
        let items ← (splitArguments args).attach.mapM fun ⟨item, hi⟩ =>
          have := length_of_mem_splitArguments hi
          have := length_splitName_le item
          ValueType.read (splitName item).2
        return .tuple items
      | "Nested" => do
        let fields ← (splitArguments args).attach.mapM fun ⟨field, hf⟩ =>
          have := length_of_mem_splitArguments hf
          have := length_splitName_le field
          match (splitName field).1 with
          | none => .error (.mapping type .unnamedField)
          | some fieldName => do
            return (String.ofList fieldName, ← ValueType.read (splitName field).2)
        return .nested "Nested" fields
      | "Enum8" | "Enum16" | "Enum" => do
        return .enumeration ⟨name, ← (splitArguments args).mapM (readMember type)⟩
      | _ => .error (.mapping type .unknownType)
termination_by text.length

/-- `ValueType.read` on strings. -/
def ValueType.ofStoreText (text : String) : Outcome ValueType := ValueType.read text.toList

end ColumnStore
