-- What is looked for in a text: the blanks at its ends, a word in it, with or
-- without regard to case, and a pair of characters. White space is what has the
-- Unicode property White_Space. Without regard to case, text is compared with
-- ASCII words; two letters outside ASCII fold into it, the Kelvin sign to k and
-- the long s to s.

namespace ColumnStore.Text

/-! ## Blanks -/

/-- The characters with the Unicode property White_Space. -/
def isBlank (c : Char) : Bool :=
  let n := c.toNat
  (9 ≤ n && n ≤ 13) || n == 32 || n == 0x85 || n == 0xA0 || n == 0x1680 ||
    (0x2000 ≤ n && n ≤ 0x200A) || n == 0x2028 || n == 0x2029 || n == 0x202F ||
    n == 0x205F || n == 0x3000

/-- The text without the blanks at its end. -/
def trimEnd (cs : List Char) : List Char := (cs.reverse.dropWhile isBlank).reverse

/-- The text without the blanks at both ends. -/
def trim (cs : List Char) : List Char := trimEnd (cs.dropWhile isBlank)

/-- `trim` on strings. -/
def trimmed (s : String) : String := .ofList (trim s.toList)

/-- Whether the text holds nothing but blanks. -/
def isBlankText (s : String) : Bool := s.toList.all isBlank

theorem length_dropWhile_le (p : Char → Bool) (cs : List Char) :
    (cs.dropWhile p).length ≤ cs.length :=
  (List.dropWhile_sublist p).length_le

theorem length_trimEnd_le (cs : List Char) : (trimEnd cs).length ≤ cs.length := by
  unfold trimEnd
  have h := length_dropWhile_le isBlank cs.reverse
  simpa using h

theorem length_trim_le (cs : List Char) : (trim cs).length ≤ cs.length :=
  Nat.le_trans (length_trimEnd_le _) (length_dropWhile_le _ _)

/-! ## Words and pairs -/

/-- Whether `word` stands somewhere in the text. -/
def occurs (word text : List Char) : Bool :=
  match text with
  | [] => word.isEmpty
  | _ :: rest => word.isPrefixOf text || occurs word rest

/-- Whether `word` ends the text. -/
def ends (word text : List Char) : Bool := word.isSuffixOf text

/-- Each `x` directly before a `y` and that `y`, both replaced by one `z`. -/
def replacePair (x y z : Char) : List Char → List Char
  | a :: b :: cs =>
    if a = x ∧ b = y then z :: replacePair x y z cs else a :: replacePair x y z (b :: cs)
  | cs => cs

/-! ## Words in any case -/

/-- Lower case, as far as it can equal a letter of ASCII. -/
def lowerChar (c : Char) : Char := if c = '\u212A' then 'k' else c.toLower

/-- `lowerChar` with the long s, which folds to s and is lower case itself. -/
def foldChar (c : Char) : Char := if c = '\u017F' then 's' else lowerChar c

def lowercase (s : String) : String := .ofList (s.toList.map lowerChar)

/-- Whether the lower-case ASCII word stands in the text, in any case. -/
def mentions (word text : String) : Bool := occurs word.toList (text.toList.map foldChar)

end ColumnStore.Text
