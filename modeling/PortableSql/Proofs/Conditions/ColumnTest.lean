import PortableSql.Proofs.Conditions.Nesting
import PortableSql.Proofs.Reading.Quoted
import PortableSql.Proofs.Render.Contents
import PortableSql.Proofs.Render.Splicing

/-!
# Tests of a column are atoms

A column is compared with a text, looked for in a list of texts, or compared with two bounds. The
predicate is read as an atom, whatever the name and the texts hold.

* `comparisons`, `memberships`, `ranges`, `operatorTokens`: operators, and the tokens that they are
  read as.
* **`Conditions.ColumnTest`**, `ColumnTest.Fits`: what a column is tested for.
* `ColumnTest.text`, `ColumnTest.nodes`: what is written for a test, and how it is read.
* `ColumnTest.chain`: the chain of a test alone.
* **`Conditions.Predicate.test`**: a test is a predicate; `Predicate.comparison`,
  `Predicate.membership`, `Predicate.range`: one for each kind.
-/

namespace PortableSql

/-! ## Operators -/

/-- Operators that compare two values. -/
def comparisons : List String :=
  ["=", "<>", "<", "<=", ">", ">=", "LIKE", "NOT LIKE", "IS", "IS NOT"]

/-- Operators that look for a value in a list. -/
def memberships : List String := ["IN", "NOT IN"]

/-- Operators that compare a value with two bounds. -/
def ranges : List String := ["BETWEEN", "NOT BETWEEN"]

/-- The tokens of an operator. -/
def operatorTokens (operator : String) : List Token :=
  ((Dialect.builtin .generic).tokens operator).getD []

theorem tokens_operator :
    ∀ e ∈ [Engine.generic, .mysql, .postgres, .sqlite, .sqlserver],
      ∀ operator ∈ comparisons ++ memberships ++ ranges,
        (Dialect.builtin e).tokens operator = some (operatorTokens operator) := by
  decide

theorem flat_operatorTokens : ∀ operator ∈ comparisons ++ memberships ++ ranges,
    ∀ t ∈ operatorTokens operator, t ≠ .opening ∧ t ≠ .closing := by
  decide

theorem nodes_operator (e : Engine) {operator : String}
    (h : operator ∈ comparisons ++ memberships ++ ranges) :
    (Dialect.builtin e).nodes operator = some ((operatorTokens operator).map .token) := by
  have he : e ∈ [Engine.generic, .mysql, .postgres, .sqlite, .sqlserver] := by
    cases e <;> decide
  rw [Dialect.nodes, tokens_operator e he operator h]
  exact nodes?_of_flat (flat_operatorTokens operator h)

/-- The operators but those of ranges have no part in how a condition is read. -/
theorem isSimple_operatorTokens : ∀ operator ∈ comparisons ++ memberships,
    ∀ t ∈ operatorTokens operator, (Node.token t).isSimple = true := by
  decide

/-- The operators of ranges end in `BETWEEN`. -/
theorem operatorTokens_range : ∀ operator ∈ ranges, ∃ before,
    operatorTokens operator = before ++ [.word "BETWEEN".toList] ∧
      ∀ t ∈ before, (Node.token t).isSimple = true := by
  intro operator h
  simp only [ranges, List.mem_cons, List.not_mem_nil, or_false] at h
  obtain rfl | rfl := h
  · exact ⟨[], by decide, by decide⟩
  · exact ⟨[.word "NOT".toList], by decide, by decide⟩

theorem keyword_operator : ∀ operator ∈ comparisons ++ memberships ++ ranges,
    Text.keyword operator = operator := by
  decide

theorem split_comparison : ∀ operator ∈ comparisons,
    Template.split (Conditions.predicateText operator) =
      [.positional, .text (" " ++ operator ++ " "), .positional] := by
  decide

theorem split_membership : ∀ operator ∈ memberships,
    Template.split (Conditions.predicateText operator) =
      [.positional, .text (" " ++ operator ++ " ("), .positional, .text ")"] := by
  decide

theorem split_range : ∀ operator ∈ ranges,
    Template.split (Conditions.predicateText operator) =
      [.positional, .text (" " ++ operator ++ " "), .positional, .text " AND ", .positional] := by
  decide

/-- Without bounds a predicate has the values of its two sides. -/
theorem predicateOperands_pair : ∀ operator ∈ comparisons ++ memberships, ∀ left right : Value,
    Conditions.predicateOperands operator left right = [left, right] := by
  intro operator h left right
  have hother : ∀ operator ∈ comparisons ++ memberships,
      operator ≠ "" ∧ ¬ (operator = "BETWEEN" ∨ operator = "NOT BETWEEN") := by
    decide
  obtain ⟨hempty, hbetween⟩ := hother operator h
  rw [Conditions.predicateOperands, if_neg hempty, if_neg hbetween]

theorem predicateOperands_range : ∀ operator ∈ ranges, ∀ left low high : Value,
    Conditions.predicateOperands operator left (.sequence [low, high]) = [left, low, high] := by
  intro operator h left low high
  have hbetween : ∀ operator ∈ ranges,
      operator ≠ "" ∧ (operator = "BETWEEN" ∨ operator = "NOT BETWEEN") := by
    decide
  obtain ⟨hempty, hbetween⟩ := hbetween operator h
  rw [Conditions.predicateOperands, if_neg hempty, if_pos hbetween]
  rfl

namespace Conditions

/-- A predicate is written as the phrases of its template. -/
theorem Leaf.compile_predicate {d : Dialect} {left right : Value} {operator : String}
    {ps : List Phrase} (hkeyword : Text.keyword operator = operator)
    (h : Template.phrases? [] (Template.split (predicateText operator))
      (predicateOperands operator left right) = some ps) :
    (Leaf.predicate left operator right).toValue.compile d =
      Phrase.write (Value.compile d) ps := by
  rw [Leaf.toValue, Leaf.item, Item.text, Item.operands, hkeyword]
  exact (Value.writtenAs_of_split h).render_eq (renders_compile d)

/-! ## Tests -/

/-- **What a column is tested for**: a comparison with a text, being in a list of texts, or lying
between two. -/
inductive ColumnTest where
  | comparison (operator value : String)
  | membership (operator : String) (values : List String)
  | range (operator low high : String)

namespace ColumnTest

/-- The operator of the test. -/
def operator : ColumnTest → String
  | comparison operator _ | membership operator _ | range operator _ _ => operator

/-- The operator is one for tests of this kind. -/
def Fits : ColumnTest → Prop
  | comparison operator _ => operator ∈ comparisons
  | membership operator _ => operator ∈ memberships
  | range operator _ _ => operator ∈ ranges

instance : (t : ColumnTest) → Decidable t.Fits
  | comparison operator _ => inferInstanceAs (Decidable (operator ∈ comparisons))
  | membership operator _ => inferInstanceAs (Decidable (operator ∈ memberships))
  | range operator _ _ => inferInstanceAs (Decidable (operator ∈ ranges))

/-- The right side of the predicate. -/
def right : ColumnTest → Value
  | comparison _ value => .literal (.text value)
  | membership _ values => .sequence (values.map fun s => .literal (.text s))
  | range _ low high => .sequence [.literal (.text low), .literal (.text high)]

/-- What is written after the operator. -/
def rightText (e : Engine) : ColumnTest → String
  | comparison _ value => e.quoteText value
  | membership _ values => "(" ++ Text.join ", " (values.map e.quoteText) ++ ")"
  | range _ low high => e.quoteText low ++ (" " ++ ("AND" ++ (" " ++ e.quoteText high)))

/-- The nodes after the operator. -/
def rightNodes : ColumnTest → List Node
  | comparison _ value => [Engine.textNode value]
  | membership _ values => [.group (Node.listed (values.map Engine.textNode))]
  | range _ low high => [Engine.textNode low, .word "AND", Engine.textNode high]

/-- The test of a column. -/
def leaf (name : String) (t : ColumnTest) : Leaf :=
  .predicate (.column ⟨name, .none⟩) t.operator t.right

/-- The chain of the test of a column. -/
def chain (name : String) (t : ColumnTest) : Conditions :=
  Conditions.predicate (.column ⟨name, .none⟩) t.operator t.right

/-- **What is written for the test** of a column. -/
def text (e : Engine) (name : String) (t : ColumnTest) : String :=
  (Dialect.builtin e).quote name ++ (" " ++ (t.operator ++ (" " ++ t.rightText e)))

/-- **The nodes of the test** of a column. -/
def nodes (e : Engine) (name : String) (t : ColumnTest) : List Node :=
  e.nameNode name :: ((operatorTokens t.operator).map .token ++ t.rightNodes)

variable (e : Engine) {name : String} {t : ColumnTest}

theorem mem_operators (ht : t.Fits) : t.operator ∈ comparisons ++ memberships ++ ranges := by
  cases t with
  | comparison operator value => exact List.mem_append_left _ (List.mem_append_left _ ht)
  | membership operator values => exact List.mem_append_left _ (List.mem_append_right _ ht)
  | range operator low high => exact List.mem_append_right _ ht

/-! ### What is written -/

theorem compile_textList (values : List String) :
    (Value.sequence (values.map fun s => .literal (.text s))).compile (.builtin e) =
      pure (Text.join ", " (values.map e.quoteText)) := by
  refine (renders_compile (.builtin e)).render_texts (fun s _ => rfl) fun s _ => ?_
  simp [Engine.quoteText]

/-- The phrases of the test of a column. -/
def phrases (column : Value) : ColumnTest → List Phrase
  | comparison operator value =>
    [.content column, .keyword (" " ++ operator ++ " "), .content (.literal (.text value))]
  | membership operator values =>
    [.content column, .keyword (" " ++ operator ++ " ("),
      .content (.sequence (values.map fun s => .literal (.text s))), .keyword ")"]
  | range operator low high =>
    [.content column, .keyword (" " ++ operator ++ " "), .content (.literal (.text low)),
      .keyword " AND ", .content (.literal (.text high))]

theorem phrases?_leaf (column : Value) (ht : t.Fits) :
    Template.phrases? [] (Template.split (predicateText t.operator))
      (predicateOperands t.operator column t.right) = some (t.phrases column) := by
  cases t with
  | comparison op value =>
    rw [operator, split_comparison op ht, predicateOperands_pair op (List.mem_append_left _ ht)]
    rfl
  | membership op values =>
    rw [operator, split_membership op ht, predicateOperands_pair op (List.mem_append_right _ ht)]
    rfl
  | range op low high =>
    rw [operator, split_range op ht, right, predicateOperands_range op ht]
    rfl

theorem compile_leaf (hname : name ≠ "*") (ht : t.Fits) :
    (t.leaf name).toValue.compile (.builtin e) = .ok (t.text e name) := by
  have hcolumn : (Value.column ⟨name, .none⟩).compile (.builtin e) =
      pure ((Dialect.builtin e).quote name) := (Dialect.builtin e).compile_column hname
  have htext (s : String) : (Value.literal (.text s)).compile (.builtin e) =
      pure (e.quoteText s) := rfl
  rw [leaf, Leaf.compile_predicate (keyword_operator _ (mem_operators ht)) (phrases?_leaf _ ht),
    text]
  cases t with
  | comparison op value =>
    simp only [phrases, Phrase.write, hcolumn, htext, pure_bind, operator, rightText,
      String.append_assoc, String.append_empty]
    rfl
  | membership op values =>
    have hopening : " (" = " " ++ "(" := rfl
    simp only [phrases, Phrase.write, hcolumn, compile_textList, pure_bind, operator, rightText,
      String.append_assoc, String.append_empty, hopening]
    rfl
  | range op low high =>
    have hand : " AND " = " " ++ ("AND" ++ " ") := rfl
    simp only [phrases, Phrase.write, hcolumn, htext, pure_bind, operator, rightText,
      String.append_assoc, String.append_empty, hand]
    rfl

theorem isEmpty_chain (name : String) (t : ColumnTest) : (t.chain name).isEmpty = false := by
  have hoperands : ∀ operator left right, predicateOperands operator left right ≠ [] := by
    intro operator left right
    unfold predicateOperands
    split_ifs <;> exact List.cons_ne_nil _ _
  simp [chain, Conditions.predicate, Conditions.and, add, connect, push, empty, isEmpty, hoperands]

theorem compile_chain (hname : name ≠ "*") (ht : t.Fits) :
    (t.chain name).toValue.compile (.builtin e) = .ok (t.text e name) := by
  have hchain : (t.chain name).toValue = (t.leaf name).toValue := by
    simp [chain, leaf, Conditions.predicate, Conditions.and, add, connect, push, empty, toValue,
      toExpression, depth, Leaf.toValue, Leaf.item, Item.text, Item.operands]
  rw [hchain, compile_leaf e hname ht]

/-! ### What is read -/

theorem nodes_rightText (t : ColumnTest) :
    (Dialect.builtin e).nodes (t.rightText e) = some t.rightNodes := by
  have hd := e.separates
  cases t with
  | comparison operator value => exact e.nodes_quoteText value
  | membership operator values =>
    have hgroup := Dialect.nodes_group hd (e.nodes_join_quoteText values) ""
    rwa [String.append_empty] at hgroup
  | range operator low high =>
    rw [rightText, Dialect.nodes_append hd (e.nodes_quoteText low) (Dialect.startsApart_blank _),
      Dialect.nodes_blank hd, Dialect.nodes_word hd (by decide) (Dialect.startsApart_blank _),
      Dialect.nodes_blank hd, e.nodes_quoteText]
    rfl

theorem nodes_text (ht : t.Fits) :
    (Dialect.builtin e).nodes (t.text e name) = some (t.nodes e name) := by
  have hd := e.separates
  rw [text, Dialect.nodes_append hd (e.nodes_quote name) (Dialect.startsApart_blank _),
    Dialect.nodes_blank hd,
    Dialect.nodes_append hd (nodes_operator e (mem_operators ht)) (Dialect.startsApart_blank _),
    Dialect.nodes_blank hd, nodes_rightText]
  rfl

/-- Only the operator of a range has a part in how the test is read. -/
theorem ofNodes?_nodes (ht : t.Fits) :
    Formula.ofNodes? (t.nodes e name) = some (.atom (t.nodes e name)) := by
  have hsimple {operator : String} (h : operator ∈ comparisons ++ memberships) (last : Node)
      (hlast : last.isSimple = true) :
      ∀ n ∈ e.nameNode name :: ((operatorTokens operator).map .token ++ [last]),
        n.isSimple = true := by
    intro n hn
    rw [List.mem_cons, List.mem_append, List.mem_singleton] at hn
    rcases hn with rfl | hn | rfl
    · rfl
    · obtain ⟨token, htoken, rfl⟩ := List.mem_map.mp hn
      exact isSimple_operatorTokens operator h token htoken
    · exact hlast
  cases t with
  | comparison operator value =>
    exact Formula.ofNodes?_of_simple (by simp [nodes, rightNodes])
      (hsimple (List.mem_append_left _ ht) _ rfl)
  | membership operator values =>
    exact Formula.ofNodes?_of_simple (by simp [nodes, rightNodes])
      (hsimple (List.mem_append_right _ ht) _ rfl)
  | range operator low high =>
    obtain ⟨before, hoperator, hbefore⟩ := operatorTokens_range operator ht
    have hnodes : (range operator low high).nodes e name =
        (e.nameNode name :: before.map .token) ++ .word "BETWEEN" ::
          ([Engine.textNode low] ++ .word "AND" :: [Engine.textNode high]) := by
      simp [nodes, ColumnTest.operator, hoperator, rightNodes, Node.word]
    rw [hnodes]
    refine Formula.ofNodes?_of_range (List.forall_mem_cons.mpr ⟨rfl, ?_⟩)
      (List.forall_mem_singleton.mpr rfl) (List.forall_mem_singleton.mpr rfl)
    exact List.forall_mem_map.mpr hbefore

theorem condition?_text (ht : t.Fits) :
    (Dialect.builtin e).condition? (t.text e name) = some (.atom (t.nodes e name)) := by
  rw [Dialect.condition?, nodes_text e ht, Option.bind_some, ofNodes?_nodes e ht]

end ColumnTest

/-! ## Predicates -/

namespace Predicate

variable (e : Engine) (name : String)

/-- **A test of a column is a predicate**, whatever the texts hold. -/
def test (t : ColumnTest) (hname : name ≠ "*") (ht : t.Fits) : Predicate (.builtin e) where
  leaf := t.leaf name
  text := t.text e name
  atom := t.nodes e name
  compile_eq := t.compile_leaf e hname ht
  condition_eq := t.condition?_text e ht

/-- A comparison of a column with a text. -/
def comparison (operator value : String) (hname : name ≠ "*") (hop : operator ∈ comparisons) :
    Predicate (.builtin e) :=
  test e name (.comparison operator value) hname hop

/-- A column that is in a list of texts. -/
def membership (operator : String) (values : List String) (hname : name ≠ "*")
    (hop : operator ∈ memberships) : Predicate (.builtin e) :=
  test e name (.membership operator values) hname hop

/-- A column between two texts. -/
def range (operator low high : String) (hname : name ≠ "*") (hop : operator ∈ ranges) :
    Predicate (.builtin e) :=
  test e name (.range operator low high) hname hop

end Predicate

end Conditions

end PortableSql
