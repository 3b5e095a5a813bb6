-- The usual grammar of SQL expressions over tokens. An operator binds as
-- tightly as its level says and takes its operands from the left, a word in
-- front of an operand binds as loosely as its own level, and parentheses make
-- an operand of any expression. The grammar gives tokens one tree at most, and
-- a reader with a stack finds it.
import ColumnStore.Query.Expr
import ColumnStore.Query.Sql

namespace ColumnStore

/-! ## Tokens -/

inductive Token where
  /-- A quoted name: an identifier or the key of a subcolumn. -/
  | name (text : String)
  /-- A literal, a placeholder or a lambda's parameter. -/
  | raw (text : String)
  | typeName (text : String)
  /-- A keyword, an operator or a function's name. -/
  | word (text : String)
  | opening
  | closing
  | indexOpening
  | indexClosing
  | comma
  | dot
  | arrow
  deriving DecidableEq, Repr

def Token.text : Token → String
  | name text | raw text | typeName text | word text => text
  | opening => "("
  | closing => ")"
  | indexOpening => "["
  | indexClosing => "]"
  | comma => ","
  | dot => "."
  | arrow => "->"

namespace Operator

def all : List Operator :=
  [add, sub, mul, div, mod, eq, ne, lt, le, gt, ge, and, or]

def ofSymbol? (symbol : String) : Option Operator :=
  all.find? (·.symbol = symbol)

/-- How tightly the operator binds its operands. -/
def level : Operator → Nat
  | or => 1
  | and => 2
  | eq | ne | lt | le | gt | ge => 5
  | add | sub => 6
  | mul | div | mod => 7

theorem ofSymbol?_symbol (op : Operator) : ofSymbol? op.symbol = some op := by
  cases op <;> decide

theorem symbol_ne_is (op : Operator) : op.symbol ≠ "IS" := by
  cases op <;> decide

theorem symbol_ne_as (op : Operator) : op.symbol ≠ "AS" := by
  cases op <;> decide

end Operator

/-- The words of the syntax itself, none of which names a function. -/
def reserved : List String := ["NOT", "CAST", "IS", "NULL", "AS"] ++ Operator.all.map (·.symbol)

/-- The words behind the operand of a test for `NULL`. -/
def nullTest (negated : Bool) : List Token :=
  if negated then [.word "IS", .word "NOT", .word "NULL"] else [.word "IS", .word "NULL"]

/-! ## The grammar -/

/-- The tokens are those of an expression whose outermost word binds at least as tightly as the
level: 0 is a lambda, 1 `OR`, 2 `AND`, 3 `NOT`, 4 a test for `NULL`, 5 a comparison, 6 a sum, 7 a
product, 8 a sign, and 9 an operand with what is written behind it. -/
inductive Derives : Nat → List Token → Sql → Prop
  | name {text} : Derives 9 [.name text] (.identifier text)
  | raw {text} : Derives 9 [.raw text] (.raw text)
  | group {ts s} (h : Derives 0 ts s) : Derives 9 (.opening :: (ts ++ [.closing])) s
  | call {name} (arguments : List (List Token × Sql)) (hname : name ∉ reserved)
      (h : ∀ a ∈ arguments, Derives 0 a.1 a.2) :
      Derives 9
        (.word name :: .opening ::
          ([Token.comma].intercalate (arguments.map (·.1)) ++ [.closing]))
        (.function name (arguments.map (·.2)))
  | cast {ts s typeName} (h : Derives 0 ts s) :
      Derives 9
        (.word "CAST" :: .opening :: (ts ++ [.word "AS", .typeName typeName, .closing]))
        (.cast s typeName)
  | subcolumn {ts s key} (h : Derives 9 ts s) :
      Derives 9 (ts ++ [.dot, .name key]) (.subcolumn s key)
  | subscript {ts s us index} (h : Derives 9 ts s) (hindex : Derives 0 us index) :
      Derives 9 (ts ++ .indexOpening :: (us ++ [.indexClosing])) (.subscript s index)
  | negate {ts s} (h : Derives 8 ts s) : Derives 8 (.word "-" :: ts) (.negate s)
  /-- On the right of an operator stands what binds more tightly than it. -/
  | binary {ts left us right} (op : Operator) (hleft : Derives op.level ts left)
      (hright : Derives (op.level + 1) us right) :
      Derives op.level (ts ++ .word op.symbol :: us) (.binary left op.symbol right)
  | isNull {ts s negated} (h : Derives 4 ts s) :
      Derives 4 (ts ++ nullTest negated) (.isNull s negated)
  | not {ts s} (h : Derives 3 ts s) : Derives 3 (.word "NOT" :: ts) (.not s)
  | lambda {p ts s} (h : Derives 0 ts s) : Derives 0 (.raw p :: .arrow :: ts) (.lambda [p] s)
  | tighter {l ts s} (h : Derives (l + 1) ts s) : Derives l ts s

theorem Derives.of_le {l m : Nat} {ts : List Token} {s : Sql} (hle : l ≤ m)
    (h : Derives m ts s) : Derives l ts s := by
  induction hle with
  | refl => exact h
  | step _ ih => exact ih h.tighter

/-! ## Reading tokens -/

/-- What has been read and waits for what stands behind it. -/
inductive Frame where
  /-- An opened parenthesis around an operand. -/
  | group
  /-- A call's arguments so far, the last one first. -/
  | arguments (name : String) (done : List Sql)
  | index (target : Sql)
  | cast
  | not
  | negate
  | binary (left : Sql) (op : Operator)
  | lambda (parameter : String)

/-- Where the reader stands. -/
inductive Cursor where
  /-- Before an operand. -/
  | start
  /-- Behind a function's name. -/
  | named (name : String)
  /-- Behind `CAST`. -/
  | casting
  /-- Behind an operand, which a postfix may extend. -/
  | behind (e : Sql)
  | dotted (base : Sql)
  /-- Behind `IS` or `IS NOT`. -/
  | test (operand : Sql) (negated : Bool)
  /-- Behind the `AS` of a conversion. -/
  | typed (operand : Sql)
  /-- Behind the type of a conversion. -/
  | cased (operand : Sql) (typeName : String)

abbrev Reading := List Frame × Cursor

/-- The tree that a frame makes of the operand it waits for, and the level of its word. A bracket
waits for its closing token. -/
def Frame.close? (operand : Sql) : Frame → Option (Nat × Sql)
  | lambda p => some (0, .lambda [p] operand)
  | binary left op => some (op.level, .binary left op.symbol operand)
  | not => some (3, .not operand)
  | negate => some (8, .negate operand)
  | _ => none

/-- What waits for an operand and binds at least as tightly as the level has it. -/
def reduce (l : Nat) : List Frame → Sql → List Frame × Sql
  | [], e => ([], e)
  | f :: fs, e =>
    match f.close? e with
    | some (m, s) => if l ≤ m then reduce l fs s else (f :: fs, e)
    | none => (f :: fs, e)

/-- One token at the beginning of an operand. -/
def readStart (fs : List Frame) : Token → Option Reading
  | .name text => some (fs, .behind (.identifier text))
  | .raw text => some (fs, .behind (.raw text))
  | .word w =>
    if w = "NOT" then some (.not :: fs, .start)
    else if w = "-" then some (.negate :: fs, .start)
    else if w = "CAST" then some (fs, .casting)
    else if w ∈ reserved then none
    else some (fs, .named w)
  | .opening => some (.group :: fs, .start)
  | .closing =>
    match fs with
    | .arguments name [] :: fs => some (fs, .behind (.function name []))
    | _ => none
  | _ => none

/-- One token behind an operand. -/
def readBehind (fs : List Frame) (e : Sql) : Token → Option Reading
  | .dot => some (fs, .dotted e)
  | .indexOpening => some (.index e :: fs, .start)
  | .arrow =>
    match e with
    | .raw p => some (.lambda p :: fs, .start)
    | _ => none
  | .word w =>
    if w = "IS" then
      match reduce 4 fs e with
      | (fs, e) => some (fs, .test e false)
    else if w = "AS" then
      match reduce 0 fs e with
      | (.cast :: fs, e) => some (fs, .typed e)
      | _ => none
    else
      match Operator.ofSymbol? w with
      | some op =>
        match reduce op.level fs e with
        | (fs, left) => some (.binary left op :: fs, .start)
      | none => none
  | .comma =>
    match reduce 0 fs e with
    | (.arguments name done :: fs, e) => some (.arguments name (e :: done) :: fs, .start)
    | _ => none
  | .closing =>
    match reduce 0 fs e with
    | (.group :: fs, e) => some (fs, .behind e)
    | (.arguments name done :: fs, e) => some (fs, .behind (.function name (e :: done).reverse))
    | _ => none
  | .indexClosing =>
    match reduce 0 fs e with
    | (.index target :: fs, e) => some (fs, .behind (.subscript target e))
    | _ => none
  | _ => none

def readToken (t : Token) : Reading → Option Reading
  | (fs, .start) => readStart fs t
  | (fs, .behind e) => readBehind fs e t
  | (fs, .named name) =>
    match t with
    | .opening => some (.arguments name [] :: fs, .start)
    | _ => none
  | (fs, .casting) =>
    match t with
    | .opening => some (.cast :: fs, .start)
    | _ => none
  | (fs, .dotted base) =>
    match t with
    | .name key => some (fs, .behind (.subcolumn base key))
    | _ => none
  | (fs, .test operand negated) =>
    match t with
    | .word w =>
      if w = "NULL" then some (fs, .behind (.isNull operand negated))
      else if w = "NOT" then some (fs, .test operand true)
      else none
    | _ => none
  | (fs, .typed operand) =>
    match t with
    | .typeName typeName => some (fs, .cased operand typeName)
    | _ => none
  | (fs, .cased operand typeName) =>
    match t with
    | .closing => some (fs, .behind (.cast operand typeName))
    | _ => none

def readTokens : List Token → Reading → Option Reading
  | [], r => some r
  | t :: ts, r => (readToken t r).bind (readTokens ts)

/-- The tree that the tokens are of. -/
def Sql.read? (ts : List Token) : Option Sql :=
  match readTokens ts ([], .start) with
  | some (fs, .behind e) =>
    match reduce 0 fs e with
    | ([], e) => some e
    | _ => none
  | _ => none

/-- Operators of one level group from the left, and a product binds its operands before a sum
does. -/
example : Sql.read? [.name "A", .word "-", .name "B", .word "*", .name "C", .word "-", .name "D"] =
    some (.binary (.binary (.identifier "A") "-"
      (.binary (.identifier "B") "*" (.identifier "C"))) "-" (.identifier "D")) := by
  rfl

theorem readTokens_append (ts us : List Token) (r : Reading) :
    readTokens (ts ++ us) r = (readTokens ts r).bind (readTokens us) := by
  induction ts generalizing r with
  | nil => rfl
  | cons t ts ih =>
    simp only [List.cons_append, readTokens, Option.bind_assoc]
    congr
    funext r
    exact ih r

/-! ## What waits on the stack -/

theorem Frame.level_lt_nine {f : Frame} {e s : Sql} {m : Nat} (h : f.close? e = some (m, s)) :
    m < 9 := by
  cases f with
  | binary left op =>
    cases h
    cases op <;> decide
  | lambda p => cases h; decide
  | not => cases h; decide
  | negate => cases h; decide
  | group => cases h
  | arguments name done => cases h
  | index target => cases h
  | cast => cases h

theorem reduce_of_close? {f : Frame} {e s : Sql} {l m : Nat} (h : f.close? e = some (m, s))
    (hle : l ≤ m) (fs : List Frame) : reduce l (f :: fs) e = reduce l fs s := by
  simp only [reduce, h, if_pos hle]

theorem reduce_of_lt {f : Frame} {e s : Sql} {l m : Nat} (h : f.close? e = some (m, s))
    (hlt : m < l) (fs : List Frame) : reduce l (f :: fs) e = (f :: fs, e) := by
  simp only [reduce, h, if_neg (Nat.not_le.mpr hlt)]

theorem reduce_bracket {f : Frame} {e : Sql} (h : f.close? e = none) (l : Nat)
    (fs : List Frame) : reduce l (f :: fs) e = (f :: fs, e) := by
  simp only [reduce, h]

/-- No word binds as tightly as what is written behind an operand. -/
theorem reduce_nine (fs : List Frame) (e : Sql) : reduce 9 fs e = (fs, e) := by
  cases fs with
  | nil => rfl
  | cons f fs =>
    cases h : f.close? e with
    | none => exact reduce_bracket h 9 fs
    | some closed => exact reduce_of_lt h (Frame.level_lt_nine h) fs

/-- The level of a word that stands behind its first operand. -/
def IsInfix (l : Nat) : Prop :=
  l = 4 ∨ ∃ op : Operator, l = op.level

theorem IsInfix.ne_unary {l : Nat} (h : IsInfix l) : l ≠ 0 ∧ l ≠ 3 ∧ l ≠ 8 := by
  obtain rfl | ⟨op, rfl⟩ := h
  · decide
  · cases op <;> decide

/-- A word behind an operand that binds at least as tightly as the level leaves the stack as it
is. -/
def Stops (l : Nat) (fs : List Frame) : Prop :=
  ∀ m, IsInfix m → l ≤ m → ∀ e, reduce m fs e = (fs, e)

variable {l m : Nat} {fs : List Frame} {f : Frame} {s : Sql} {ts us : List Token}

theorem Stops.mono (hle : l ≤ m) (h : Stops l fs) : Stops m fs :=
  fun n hn hmn e => h n hn (Nat.le_trans hle hmn) e

theorem Stops.nil : Stops l [] :=
  fun _ _ _ _ => rfl

theorem Stops.nine : Stops 9 fs := by
  rintro m (rfl | ⟨op, rfl⟩) hle e
  · omega
  · exact absurd hle (by cases op <;> decide)

theorem Stops.bracket (h : ∀ e, f.close? e = none) : Stops l (f :: fs) :=
  fun m _ _ e => reduce_bracket (h e) m fs

/-- A frame stops every operator that binds more tightly than its own word. -/
theorem Stops.frame {node : Sql → Sql} (h : ∀ e, f.close? e = some (m, node e))
    (hlt : ∀ n, IsInfix n → l ≤ n → m < n) : Stops l (f :: fs) :=
  fun n hn hle e => reduce_of_lt (h e) (hlt n hn hle) fs

/-! ## The reader finds the tree -/

/-- Behind the tokens stands an expression that is the tree for every word that binds no tighter
than the level. -/
def ReadAs (l : Nat) (ts : List Token) (s : Sql) : Prop :=
  ∀ fs, Stops l fs → ∃ gs e, readTokens ts (fs, .start) = some (gs, .behind e) ∧
    ∀ m ≤ l, reduce m gs e = reduce m fs s

theorem ReadAs.tighter (h : ReadAs (l + 1) ts s) : ReadAs l ts s := by
  intro fs hstops
  obtain ⟨gs, e, hread, hreduce⟩ := h fs (hstops.mono (Nat.le_succ l))
  exact ⟨gs, e, hread, fun m hm => hreduce m (Nat.le_succ_of_le hm)⟩

theorem ReadAs.of_operand (h : ∀ fs, readTokens ts (fs, .start) = some (fs, .behind s)) :
    ReadAs l ts s :=
  fun fs _ => ⟨fs, s, h fs, fun _ _ => rfl⟩

/-- An operand is read without a change to the stack. -/
theorem ReadAs.operand (h : ReadAs 9 ts s) (fs : List Frame) (us : List Token) :
    readTokens (ts ++ us) (fs, .start) = readTokens us (fs, .behind s) := by
  obtain ⟨gs, e, hread, hreduce⟩ := h fs .nine
  have hsame := hreduce 9 (Nat.le_refl _)
  rw [reduce_nine, reduce_nine] at hsame
  obtain ⟨rfl, rfl⟩ := Prod.mk.inj hsame
  rw [readTokens_append, hread, Option.bind_some]

/-- An expression with more tokens behind it. -/
theorem ReadAs.append (h : ReadAs l ts s) (hstops : Stops l fs) (us : List Token) :
    ∃ gs e, readTokens (ts ++ us) (fs, .start) = readTokens us (gs, .behind e) ∧
      ∀ m ≤ l, reduce m gs e = reduce m fs s := by
  obtain ⟨gs, e, hread, hreduce⟩ := h fs hstops
  refine ⟨gs, e, ?_, hreduce⟩
  rw [readTokens_append, hread, Option.bind_some]

/-- Up to the token behind an expression in a bracket. -/
theorem ReadAs.bracketed {t : Token} {r : Reading} (h : ReadAs 0 ts s)
    (hclose : ∀ e, f.close? e = none)
    (hnext : ∀ gs e, reduce 0 gs e = (f :: fs, s) → readBehind gs e t = some r) (us : List Token) :
    readTokens (ts ++ t :: us) (f :: fs, .start) = readTokens us r := by
  obtain ⟨gs, e, hread, hreduce⟩ := h.append (.bracket hclose) (t :: us)
  have hbracket : reduce 0 gs e = (f :: fs, s) :=
    (hreduce 0 (Nat.le_refl _)).trans (reduce_bracket (hclose s) 0 fs)
  rw [hread]
  simp only [readTokens, readToken, hnext gs e hbracket, Option.bind_some]

/-- The first operand of a word, in front of which it stands. -/
theorem ReadAs.first (h : ReadAs l ts s) (hl : IsInfix l) (hstops : Stops l fs) (us : List Token) :
    ∃ gs e, readTokens (ts ++ us) (fs, .start) = readTokens us (gs, .behind e) ∧
      reduce l gs e = (fs, s) := by
  obtain ⟨gs, e, hread, hreduce⟩ := h.append hstops us
  exact ⟨gs, e, hread, (hreduce l (Nat.le_refl l)).trans (hstops l hl (Nat.le_refl l) s)⟩

/-- The last operand of a word, behind which the word's own tree stands. -/
theorem ReadAs.last {node : Sql → Sql} (h : ReadAs m ts s)
    (hclose : ∀ e, f.close? e = some (l, node e))
    (hle : l ≤ m) (hlt : ∀ n, IsInfix n → m ≤ n → l < n) (fs : List Frame) :
    ∃ gs e, readTokens ts (f :: fs, .start) = some (gs, .behind e) ∧
      ∀ n ≤ l, reduce n gs e = reduce n fs (node s) := by
  obtain ⟨gs, e, hread, hreduce⟩ := h (f :: fs) (.frame hclose hlt)
  refine ⟨gs, e, hread, fun n hn => ?_⟩
  rw [hreduce n (Nat.le_trans hn hle), reduce_of_close? (hclose s) hn]

/-- The arguments of a call up to its closing parenthesis. -/
theorem readTokens_arguments {arguments : List (List Token × Sql)} (hne : arguments ≠ [])
    (h : ∀ a ∈ arguments, ReadAs 0 a.1 a.2) (name : String) (done : List Sql) (fs : List Frame) :
    readTokens ([Token.comma].intercalate (arguments.map (·.1)) ++ [.closing])
      (.arguments name done :: fs, .start) =
        some (fs, .behind (.function name (done.reverse ++ arguments.map (·.2)))) := by
  induction arguments generalizing done with
  | nil => exact absurd rfl hne
  | cons a arguments ih =>
    have ha := h a List.mem_cons_self
    cases arguments with
    | nil =>
      have hend : ∀ gs e, reduce 0 gs e = (.arguments name done :: fs, a.2) →
          readBehind gs e .closing = some (fs, .behind (.function name (a.2 :: done).reverse)) :=
        fun gs e h => by simp only [readBehind, h]
      rw [List.map_singleton, List.intercalate_singleton, List.map_singleton,
        ha.bracketed (fun _ => rfl) hend []]
      simp [readTokens]
    | cons b arguments =>
      have hcomma : ∀ gs e, reduce 0 gs e = (.arguments name done :: fs, a.2) →
          readBehind gs e .comma = some (.arguments name (a.2 :: done) :: fs, .start) :=
        fun gs e h => by simp only [readBehind, h]
      have hrest := ih (List.cons_ne_nil _ _) (fun c hc => h c (List.mem_cons_of_mem _ hc))
        (a.2 :: done)
      rw [List.map_cons] at hrest
      rw [List.map_cons, List.map_cons, List.intercalate_cons_cons, List.append_assoc,
        List.append_assoc, List.singleton_append, ha.bracketed (fun _ => rfl) hcomma, hrest]
      simp

/-- Whatever the grammar derives is read, by the rules of the grammar. -/
theorem Derives.readAs (h : Derives l ts s) : ReadAs l ts s := by
  induction h with
  | name => exact .of_operand fun fs => rfl
  | raw => exact .of_operand fun fs => rfl
  | group _ ih =>
    refine .of_operand fun fs => ?_
    exact ih.bracketed (f := .group) (fun _ => rfl) (fun gs e h => by simp only [readBehind, h]) []
  | @call name arguments hname _ ih =>
    refine .of_operand fun fs => ?_
    have hnot : name ≠ "NOT" := by rintro rfl; exact hname (by decide)
    have hsign : name ≠ "-" := by rintro rfl; exact hname (by decide)
    have hcast : name ≠ "CAST" := by rintro rfl; exact hname (by decide)
    simp only [readTokens, readToken, readStart, if_neg hnot, if_neg hsign, if_neg hcast,
      if_neg hname, Option.bind_some]
    by_cases hempty : arguments = []
    · subst hempty
      rfl
    · rw [readTokens_arguments hempty ih]
      rfl
  | @cast ts s typeName _ ih =>
    refine .of_operand fun fs => ?_
    exact ih.bracketed (f := .cast) (t := .word "AS") (r := (fs, .typed s)) (fun _ => rfl)
      (fun gs e h => by simp [readBehind, h]) [.typeName typeName, .closing]
  | subcolumn _ ih =>
    refine .of_operand fun fs => ?_
    rw [ih.operand]
    rfl
  | @subscript ts s us index _ _ ih ihindex =>
    refine .of_operand fun fs => ?_
    rw [ih.operand]
    exact ihindex.bracketed (f := .index s) (fun _ => rfl)
      (fun gs e h => by simp only [readBehind, h]) []
  | negate _ ih =>
    intro fs _
    exact ih.last (f := .negate) (fun _ => rfl) (Nat.le_refl _)
      (fun n hn hle => Nat.lt_of_le_of_ne hle hn.ne_unary.2.2.symm) fs
  | @binary ts left us right op _ _ ihl ihr =>
    intro fs hstops
    obtain ⟨gs, e, hread, hleft⟩ := ihl.first (.inr ⟨op, rfl⟩) hstops (.word op.symbol :: us)
    have hword : readBehind gs e (.word op.symbol) = some (.binary left op :: fs, .start) := by
      simp only [readBehind, if_neg op.symbol_ne_is, if_neg op.symbol_ne_as,
        op.ofSymbol?_symbol, hleft]
    rw [hread]
    simp only [readTokens, readToken, hword, Option.bind_some]
    exact ihr.last (f := .binary left op) (fun _ => rfl) (Nat.le_succ _) (fun n _ hle => hle) fs
  | @isNull ts s negated _ ih =>
    intro fs hstops
    obtain ⟨gs, e, hread, htest⟩ := ih.first (.inl rfl) hstops (nullTest negated)
    have hword : readBehind gs e (.word "IS") = some (fs, .test s false) := by
      simp [readBehind, htest]
    refine ⟨fs, .isNull s negated, ?_, fun _ _ => rfl⟩
    rw [hread]
    cases negated <;> simp [nullTest, readTokens, readToken, hword]
  | not _ ih =>
    intro fs _
    exact ih.last (f := .not) (fun _ => rfl) (Nat.le_refl _)
      (fun n hn hle => Nat.lt_of_le_of_ne hle hn.ne_unary.2.1.symm) fs
  | @lambda p ts s _ ih =>
    intro fs _
    exact ih.last (f := .lambda p) (fun _ => rfl) (Nat.le_refl _)
      (fun n hn hle => Nat.lt_of_le_of_ne hle hn.ne_unary.1.symm) fs
  | tighter _ ih => exact ih.tighter

theorem Derives.read? (h : Derives 0 ts s) : Sql.read? ts = some s := by
  obtain ⟨gs, e, hread, hreduce⟩ := h.readAs [] .nil
  have hend : reduce 0 gs e = ([], s) := hreduce 0 (Nat.le_refl _)
  simp only [Sql.read?, hread, hend]

/-- The grammar is unambiguous. -/
theorem Derives.unique {t : Sql} (hs : Derives 0 ts s) (ht : Derives 0 ts t) : t = s :=
  Option.some.inj (ht.read?.symm.trans hs.read?)

end ColumnStore
