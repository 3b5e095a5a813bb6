-- The grouping of an SQL expression is in its text. The usual grammar derives
-- one tree from the tokens of the text, and it is the tree that was written.
import ColumnStore.Proofs.Query.Grammar
import Mathlib.Data.List.Forall2

namespace ColumnStore

/-! ## The tokens of a text -/

namespace Sql

/-- The tokens of an operand, in parentheses where it needs them. -/
def grouped (parens : Bool) (tokens : List Token) : List Token :=
  if parens then .opening :: (tokens ++ [.closing]) else tokens

mutual

/-- The tokens of the text, each leaf being one of them. -/
def tokens : Sql → List Token
  | identifier text => [.name text]
  | raw text => [.raw text]
  | var name => [.raw name]
  | function name arguments =>
    .word name :: .opening :: ([Token.comma].intercalate (tokensAll arguments) ++ [.closing])
  | binary left op right =>
    grouped left.needsParens left.tokens ++ .word op :: grouped right.needsParens right.tokens
  | not operand => .word "NOT" :: grouped operand.needsParens operand.tokens
  | negate operand => .word "-" :: grouped operand.needsParens operand.tokens
  | isNull operand negated =>
    grouped operand.needsParens operand.tokens ++ nullTest negated
  | subcolumn base key => grouped base.needsParens base.tokens ++ [.dot, .name key]
  | subscript target index =>
    grouped target.needsParens target.tokens ++
      .indexOpening :: (index.tokens ++ [.indexClosing])
  | lambda parameters body =>
    match parameters with
    | [p] => .raw p :: .arrow :: body.tokens
    | ps =>
      .opening :: ([Token.comma].intercalate (ps.map fun p => [.raw p]) ++
        .closing :: .arrow :: body.tokens)
  | cast operand typeName =>
    .word "CAST" :: .opening ::
      (operand.tokens ++ [.word "AS", .typeName typeName, .closing])

def tokensAll : List Sql → List (List Token)
  | [] => []
  | s :: ss => s.tokens :: tokensAll ss

end

/-- The text is that of the tokens behind one another, with any blanks between them. -/
inductive Spells : List Token → List Char → Prop
  | nil : Spells [] []
  | blank {ts cs} (h : Spells ts cs) : Spells ts (' ' :: cs)
  | token {ts cs} (t : Token) (h : Spells ts cs) : Spells (t :: ts) (t.text.toList ++ cs)

variable {ts us : List Token} {xs ys : List Char}

theorem Spells.append (hx : Spells ts xs) (hy : Spells us ys) : Spells (ts ++ us) (xs ++ ys) := by
  induction hx with
  | nil => exact hy
  | blank _ ih => exact .blank ih
  | token t _ ih =>
    rw [List.append_assoc]
    exact .token t ih

theorem Spells.single (t : Token) : Spells [t] t.text.toList := by
  have h := Spells.token t .nil
  rwa [List.append_nil] at h

theorem Spells.grouped {parens : Bool} {text : String} (h : Spells ts text.toList) :
    Spells (Sql.grouped parens ts) (parenthesised parens text).toList := by
  cases parens with
  | false => exact h
  | true =>
    have htext : (parenthesised true text).toList = "(".toList ++ (text.toList ++ ")".toList) := by
      simp [parenthesised]
    rw [htext]
    exact .token .opening (h.append (.single .closing))

theorem Spells.intercalate {tss : List (List Token)} {texts : List String}
    (h : List.Forall₂ (fun ts text => Spells ts text.toList) tss texts) :
    Spells ([Token.comma].intercalate tss) (", ".intercalate texts).toList := by
  rw [String.toList_intercalate]
  induction h with
  | nil => exact .nil
  | @cons ts text tss texts hfirst hrest ih =>
    cases hrest with
    | nil =>
      rw [List.intercalate_singleton, List.map_singleton, List.intercalate_singleton]
      exact hfirst
    | cons hsecond hrest =>
      rw [List.map_cons, List.map_cons, List.intercalate_cons_cons, List.intercalate_cons_cons,
        List.append_assoc, List.append_assoc]
      exact hfirst.append (.token .comma (.blank ih))

theorem spells_parameters (ps : List String) :
    List.Forall₂ (fun ts text => Spells ts text.toList) (ps.map fun p => [.raw p]) ps := by
  induction ps with
  | nil => exact .nil
  | cons p ps ih => exact .cons (.single (.raw p)) ih

/-- The parameters of a lambda in parentheses, and its body. -/
theorem Spells.binder (ps : List String) {body : String} (h : Spells ts body.toList) :
    Spells (.opening :: ([Token.comma].intercalate (ps.map fun p => [.raw p]) ++
      .closing :: .arrow :: ts)) ("(" ++ ", ".intercalate ps ++ ") -> " ++ body).toList := by
  have htext : ("(" ++ ", ".intercalate ps ++ ") -> " ++ body).toList =
      "(".toList ++ ((", ".intercalate ps).toList ++ (")".toList ++
        (' ' :: ("->".toList ++ (' ' :: body.toList))))) := by
    simp
  rw [htext]
  exact .token .opening ((Spells.intercalate (spells_parameters ps)).append
    (.token .closing (.blank (.token .arrow (.blank h)))))

mutual

/-- The text of a tree is that of its tokens. -/
theorem spells_render : (s : Sql) → Spells s.tokens s.render.toList
  | identifier text => .single (.name text)
  | raw text => .single (.raw text)
  | var name => .single (.raw name)
  | function name arguments => by
    have harguments := Spells.intercalate (spells_renderAll arguments)
    have htext : (render (function name arguments)).toList = name.toList ++
        ("(".toList ++ ((", ".intercalate (renderAll arguments)).toList ++ ")".toList)) := by
      simp [render]
    rw [htext]
    exact .token (.word name) (.token .opening (harguments.append (.single .closing)))
  | binary left op right => by
    have htext : (render (binary left op right)).toList =
        (parenthesised left.needsParens left.render).toList ++
          (' ' :: (op.toList ++
            (' ' :: (parenthesised right.needsParens right.render).toList))) := by
      simp [render]
    rw [htext]
    exact (spells_render left).grouped.append
      (.blank (.token (.word op) (.blank (spells_render right).grouped)))
  | not operand => by
    have htext : (render (not operand)).toList =
        "NOT".toList ++ (' ' :: (parenthesised operand.needsParens operand.render).toList) := by
      simp [render]
    rw [htext]
    exact .token (.word "NOT") (.blank (spells_render operand).grouped)
  | negate operand => by
    rw [render, String.toList_append]
    exact .token (.word "-") (spells_render operand).grouped
  | isNull operand negated => by
    have hwords : Spells (nullTest negated)
        (if negated then " IS NOT NULL" else " IS NULL").toList := by
      cases negated with
      | false => exact .blank (.token (.word "IS") (.blank (.single (.word "NULL"))))
      | true =>
        exact .blank (.token (.word "IS") (.blank (.token (.word "NOT")
          (.blank (.single (.word "NULL"))))))
    rw [render, String.toList_append]
    exact (spells_render operand).grouped.append hwords
  | subcolumn base key => by
    rw [render, String.toList_append, String.toList_append, List.append_assoc]
    exact (spells_render base).grouped.append (.token .dot (.single (.name key)))
  | subscript target index => by
    have htext : (render (subscript target index)).toList =
        (parenthesised target.needsParens target.render).toList ++
          ("[".toList ++ (index.render.toList ++ "]".toList)) := by
      simp [render]
    rw [htext]
    exact (spells_render target).grouped.append
      (.token .indexOpening ((spells_render index).append (.single .indexClosing)))
  | lambda [] body => .binder [] (spells_render body)
  | lambda [p] body => by
    rw [render, String.toList_append, String.toList_append, List.append_assoc]
    exact .token (.raw p) (.blank (.token .arrow (.blank (spells_render body))))
  | lambda (p :: q :: ps) body => .binder (p :: q :: ps) (spells_render body)
  | cast operand typeName => by
    have htext : (render (cast operand typeName)).toList = "CAST".toList ++ ("(".toList ++
        (operand.render.toList ++ (' ' :: ("AS".toList ++ (' ' ::
          (typeName.toList ++ ")".toList)))))) := by
      simp [render]
    rw [htext]
    exact .token (.word "CAST") (.token .opening ((spells_render operand).append
      (.blank (.token (.word "AS") (.blank (.token (.typeName typeName) (.single .closing)))))))

theorem spells_renderAll : (ss : List Sql) →
    List.Forall₂ (fun ts text => Spells ts text.toList) (tokensAll ss) (renderAll ss)
  | [] => .nil
  | s :: ss => .cons (spells_render s) (spells_renderAll ss)

end

/-! ## The tree of a text -/

mutual

/-- The tree with its bound names as raw leaves: a name is written the same where a lambda binds
it and where it stands for a value. -/
def unbound : Sql → Sql
  | identifier text => identifier text
  | raw text => raw text
  | var name => raw name
  | function name arguments => function name (unboundAll arguments)
  | binary left op right => binary left.unbound op right.unbound
  | not operand => not operand.unbound
  | negate operand => negate operand.unbound
  | isNull operand negated => isNull operand.unbound negated
  | subcolumn base key => subcolumn base.unbound key
  | subscript target index => subscript target.unbound index.unbound
  | lambda parameters body => lambda parameters body.unbound
  | cast operand typeName => cast operand.unbound typeName

def unboundAll : List Sql → List Sql
  | [] => []
  | s :: ss => s.unbound :: unboundAll ss

end

/-- A tree of the usual grammar: no negation, lambdas of one parameter, and the operators of the
application. -/
inductive Standard : Sql → Prop
  | identifier {text} : Standard (.identifier text)
  | raw {text} : Standard (.raw text)
  | var {name} : Standard (.var name)
  | function {name arguments} (hname : name ∉ reserved) (h : ∀ a ∈ arguments, Standard a) :
      Standard (.function name arguments)
  | binary {left right} (op : Operator) (hleft : Standard left) (hright : Standard right) :
      Standard (.binary left op.symbol right)
  | not {operand} (h : Standard operand) : Standard (.not operand)
  | isNull {operand negated} (h : Standard operand) : Standard (.isNull operand negated)
  | subcolumn {base key} (h : Standard base) : Standard (.subcolumn base key)
  | subscript {target index} (h : Standard target) (hindex : Standard index) :
      Standard (.subscript target index)
  | lambda {p body} (h : Standard body) : Standard (.lambda [p] body)
  | cast {operand typeName} (h : Standard operand) : Standard (.cast operand typeName)

theorem tokensAll_eq_map (ss : List Sql) : tokensAll ss = ss.map tokens := by
  induction ss with
  | nil => rfl
  | cons s ss ih => rw [tokensAll, ih, List.map_cons]

theorem unboundAll_eq_map (ss : List Sql) : unboundAll ss = ss.map unbound := by
  induction ss with
  | nil => rfl
  | cons s ss ih => rw [unboundAll, ih, List.map_cons]

/-- The grammar derives the tree, bare where an expression stands and in the parentheses it has
where an operand does. -/
structure Grouped (s : Sql) : Prop where
  expression : Derives 0 s.tokens s.unbound
  operand : Derives 9 (grouped s.needsParens s.tokens) s.unbound

variable {s : Sql}

theorem Grouped.of_operand (hparens : s.needsParens = false)
    (h : Derives 9 s.tokens s.unbound) : Grouped s := by
  refine ⟨h.of_le (Nat.zero_le 9), ?_⟩
  rw [hparens]
  exact h

theorem Grouped.of_expression (hparens : s.needsParens = true)
    (h : Derives 0 s.tokens s.unbound) : Grouped s := by
  refine ⟨h, ?_⟩
  rw [hparens]
  exact .group h

/-- The grammar derives every tree it is the grammar of, by the structure of the tree. -/
theorem Standard.isGrouped (h : s.Standard) : Grouped s := by
  induction h with
  | identifier => exact .of_operand rfl .name
  | raw => exact .of_operand rfl .raw
  | var => exact .of_operand rfl .raw
  | @function name arguments hname _ ih =>
    have hcall := Derives.call (arguments.map fun a => (a.tokens, a.unbound)) hname (by
      intro x hx
      obtain ⟨a, ha, rfl⟩ := List.mem_map.mp hx
      exact (ih a ha).expression)
    refine .of_operand rfl ?_
    rw [tokens, unbound, tokensAll_eq_map, unboundAll_eq_map]
    simpa only [List.map_map, Function.comp_def] using hcall
  | binary op _ _ ihl ihr =>
    have hle : op.level ≤ 8 := by cases op <;> decide
    have hbinary := Derives.binary op (ihl.operand.of_le (Nat.le_trans hle (Nat.le_succ 8)))
      (ihr.operand.of_le (Nat.succ_le_succ hle))
    exact .of_expression rfl (hbinary.of_le (Nat.zero_le _))
  | not _ ih =>
    exact .of_expression rfl ((Derives.not (ih.operand.of_le (by decide))).of_le (Nat.zero_le 3))
  | isNull _ ih =>
    exact .of_expression rfl
      ((Derives.isNull (ih.operand.of_le (by decide))).of_le (Nat.zero_le 4))
  | subcolumn _ ih => exact .of_operand rfl (.subcolumn ih.operand)
  | subscript _ _ ih ihindex => exact .of_operand rfl (.subscript ih.operand ihindex.expression)
  | lambda _ ih => exact .of_expression rfl (.lambda ih.expression)
  | cast _ ih => exact .of_operand rfl (.cast ih.expression)

/-- The text of a tree is that of tokens from which the usual grammar derives this tree and no
other, so the reader finds it again, and no two such trees have the same tokens. -/
theorem rendering_keeps_the_grouping {s : Sql} (h : s.Standard) :
    Spells s.tokens s.render.toList ∧ (∀ t, Derives 0 s.tokens t ↔ t = s.unbound) ∧
      read? s.tokens = some s.unbound ∧
      ∀ t : Sql, t.Standard → t.tokens = s.tokens → t.unbound = s.unbound := by
  have hs := h.isGrouped.expression
  refine ⟨spells_render s, ?_, hs.read?, ?_⟩
  · intro t
    constructor
    · intro ht
      exact hs.unique ht
    · rintro rfl
      exact hs
  · intro t ht htokens
    have hderived := ht.isGrouped.expression
    rw [htokens] at hderived
    exact hs.unique hderived

/-- A filter with every kind of node but the negation, and with a difference on the right of
another. -/
theorem nested_filter_is_read_back :
    let difference := binary (identifier "\"A\"") "-" (binary (var "t") "-" (raw "1"))
    let sum := binary difference "+" (subscript (subcolumn (identifier "\"D\"") "\"k\"") (raw "1"))
    let test := binary sum ">" (cast (isNull (identifier "\"A\"") true) "Int32")
    let filter := not (function "arrayExists" [lambda ["t"] test, identifier "\"L\""])
    filter.render =
        "NOT arrayExists(t -> ((\"A\" - (t - 1)) + \"D\".\"k\"[1]) > " ++
          "CAST(\"A\" IS NOT NULL AS Int32), \"L\")" ∧
      filter.Standard ∧ Derives 0 filter.tokens filter.unbound ∧
      read? filter.tokens = some filter.unbound ∧
      ¬ Derives 0 [.name "\"A\"", .word "-", .raw "t", .word "-", .raw "1"]
        difference.unbound := by
  intro difference sum test filter
  have hdifference : difference.Standard := .binary .sub .identifier (.binary .sub .var .raw)
  have hsum : sum.Standard := .binary .add hdifference (.subscript (.subcolumn .identifier) .raw)
  have htest : test.Standard := .binary .gt hsum (.cast (.isNull .identifier))
  have hfilter : filter.Standard := by
    refine .not (.function (by decide) ?_)
    rintro a (_ | ⟨_, _ | ⟨_, _ | _⟩⟩)
    · exact .lambda htest
    · exact .identifier
  obtain ⟨-, hderives, hread, -⟩ := rendering_keeps_the_grouping hfilter
  refine ⟨by decide +kernel, hfilter, (hderives _).mpr rfl, hread, ?_⟩
  -- without its parentheses the difference groups from the left
  intro hbare
  have hbound := hbare.read?
  cases hbound

end Sql

end ColumnStore
