import Mathlib.Tactic.SplitIfs
import PortableSql.Proofs.Reading.Node

/-!
# Conditions as SQL reads them

A condition is read from its text: `AND` binds tighter than `OR`, parentheses group, and everything
between connectives is an atom. The `AND` of a `BETWEEN` is no connective.

* `Connective`, **`Formula`**, `Formula.eval`: formulas over atoms.
* `Formula.joined`, `joinedValue`, `eval_joined`: operands with connectives between them.
* `splitOperands`, `Formula.ofParts?`, **`Dialect.condition?`**: the formula of a text.
* `Dialect.ReadsAs`: texts that are one operand; `readsAs_of_condition?_atom`, `readsAs_group`.
* **`Dialect.condition?_joined`**: operands with connectives between them are read as such.
-/

namespace PortableSql

/-- A connective. -/
inductive Connective where
  | and | or
  deriving Repr, DecidableEq

/-- The keyword of the connective. -/
def Connective.keyword : Connective → String
  | .and => "AND"
  | .or => "OR"

/-- **A formula over atoms**; an atom is what stands between connectives. -/
inductive Formula where
  | atom (ns : List Node)
  | and (φ ψ : Formula)
  | or (φ ψ : Formula)

namespace Formula

/-- The value of a formula when the atoms have values. -/
def eval (ρ : List Node → Bool) : Formula → Bool
  | atom ns => ρ ns
  | and φ ψ => φ.eval ρ && ψ.eval ρ
  | or φ ψ => φ.eval ρ || ψ.eval ρ

/-- **Operands with connectives between them**, where `AND` binds tighter. -/
def joined (φ : Formula) : List (Connective × Formula) → Formula
  | [] => φ
  | (.and, ψ) :: rest => joined (.and φ ψ) rest
  | (.or, ψ) :: rest => .or φ (joined ψ rest)

end Formula

/-- The value of operands with connectives between them, where `AND` binds tighter. -/
def joinedValue (b : Bool) : List (Connective × Bool) → Bool
  | [] => b
  | (.and, c) :: rest => joinedValue (b && c) rest
  | (.or, c) :: rest => b || joinedValue c rest

theorem Formula.eval_joined (ρ : List Node → Bool) (φ : Formula)
    (rest : List (Connective × Formula)) :
    (φ.joined rest).eval ρ = joinedValue (φ.eval ρ) (rest.map fun x => (x.1, x.2.eval ρ)) := by
  induction rest generalizing φ with
  | nil => rfl
  | cons x rest ih =>
    obtain ⟨_ | _, ψ⟩ := x
    · exact ih (.and φ ψ)
    · exact congrArg (φ.eval ρ || ·) (ih ψ)

/-- Operands may be taken together if there are only `AND`s between them, or an `OR` after them. -/
theorem joinedValue_append {xs ys : List (Connective × Bool)}
    (h : (∀ x ∈ xs, x.1 = .and) ∨ ∀ y ∈ ys.head?, y.1 = .or) (b : Bool) :
    joinedValue b (xs ++ ys) = joinedValue (joinedValue b xs) ys := by
  induction xs generalizing b with
  | nil => rfl
  | cons x xs ih =>
    have hxs := h.imp_left fun hx => (List.forall_mem_cons.mp hx).2
    obtain ⟨_ | _, c⟩ := x
    · exact ih hxs (b && c)
    · -- an `OR` among the operands, so that one comes after them
      obtain hx | hy := h
      · cases hx _ List.mem_cons_self
      rw [List.cons_append, joinedValue, ih hxs, joinedValue]
      cases ys with
      | nil => rfl
      | cons y ys =>
        obtain ⟨_ | _, c⟩ := y
        · cases hy _ rfl
        · simp only [joinedValue, Bool.or_assoc]

theorem joinedValue_and {xs : List (Connective × Bool)} (h : ∀ x ∈ xs, x.1 = .and) (b c : Bool) :
    joinedValue (b && c) xs = (b && joinedValue c xs) := by
  induction xs generalizing c with
  | nil => rfl
  | cons x xs ih =>
    obtain ⟨hx, hxs⟩ := List.forall_mem_cons.mp h
    obtain ⟨k, a⟩ := x
    obtain rfl : k = .and := hx
    rw [joinedValue, Bool.and_assoc, ih hxs, joinedValue]

/-- An operand that consists of operands may be written out after `AND` if there are only `AND`s
between them, and after `OR` also if an `OR` comes after them. -/
theorem joinedValue_cons_append {xs ys : List (Connective × Bool)} {k : Connective}
    (h : (∀ x ∈ xs, x.1 = .and) ∨ k = .or ∧ ∀ y ∈ ys.head?, y.1 = .or) (b c : Bool) :
    joinedValue b ((k, c) :: (xs ++ ys)) = joinedValue b ((k, joinedValue c xs) :: ys) := by
  cases k with
  | or => rw [joinedValue, joinedValue, joinedValue_append (h.imp_right And.right)]
  | and =>
    have hxs : ∀ x ∈ xs, x.1 = .and := h.resolve_right fun h => nomatch h.1
    rw [joinedValue, joinedValue_append (.inl hxs), joinedValue_and hxs, joinedValue]

/-! ## Operands -/

/-- A node, with the formula that it is read as if it is a group. -/
abbrev Part := Node × Option Formula

namespace Node

/-- The node is this word, in whatever case. -/
def isWord (keyword : String) : Node → Bool
  | token (.word cs) => cs.map Char.toUpper = keyword.toList
  | _ => false

/-- The connective that a node stands for. -/
def connective? (n : Node) : Option Connective :=
  if n.isWord "AND" then some .and else if n.isWord "OR" then some .or else none

end Node

/-- What stands before the first connective, and after each of them. An `AND` that the bounds of a
`BETWEEN` await is none. -/
def splitOperands (bounds : Bool) : List Part → Option (List Part × List (Connective × List Part))
  | [] => if bounds then none else some ([], [])
  | p :: ps =>
    match p.1.connective? with
    | none => (splitOperands (bounds || p.1.isWord "BETWEEN") ps).map fun r => (p :: r.1, r.2)
    | some c =>
      if bounds = false then (splitOperands false ps).map fun r => ([], (c, r.1) :: r.2)
      else if c = .and then (splitOperands false ps).map fun r => (p :: r.1, r.2)
      else none

namespace Formula

/-- The formula of an operand: that of a group, or an atom. -/
def ofOperand? : List Part → Option Formula
  | [] => none
  | [(.group _, φ)] => φ
  | ps => some (atom (ps.map (·.1)))

/-- The formulas of operands. -/
def ofOperands? : List (Connective × List Part) → Option (List (Connective × Formula))
  | [] => some []
  | (c, ps) :: rest => (ofOperand? ps).bind fun φ => (ofOperands? rest).map ((c, φ) :: ·)

/-- The formula of parts. -/
def ofParts? (ps : List Part) : Option Formula :=
  (splitOperands false ps).bind fun r =>
    (ofOperand? r.1).bind fun φ => (ofOperands? r.2).map φ.joined

end Formula

mutual

/-- The formula that a group is read as. -/
def Node.formula? : Node → Option Formula
  | .token _ => none
  | .group ns => Formula.ofParts? (parts ns)

/-- Nodes with the formulas of groups. -/
def parts : List Node → List Part
  | [] => []
  | n :: ns => (n, n.formula?) :: parts ns

end

/-- The formula of nodes. -/
def Formula.ofNodes? (ns : List Node) : Option Formula := ofParts? (parts ns)

/-- **The formula that a text is read as**, in the dialect. -/
def Dialect.condition? (d : Dialect) (text : String) : Option Formula :=
  (d.nodes text).bind Formula.ofNodes?

theorem parts_append (ns ms : List Node) : parts (ns ++ ms) = parts ns ++ parts ms := by
  induction ns with
  | nil => rfl
  | cons n ns ih => rw [List.cons_append, parts, ih, parts, List.cons_append]

theorem splitOperands_append {bounds : Bool} {ps o : List Part}
    (h : splitOperands bounds ps = some (o, [])) (qs : List Part) :
    splitOperands bounds (ps ++ qs) = (splitOperands false qs).map fun r => (o ++ r.1, r.2) := by
  induction ps generalizing bounds o with
  | nil =>
    cases bounds with
    | true => cases h
    | false =>
      cases h
      exact Option.map_id_apply.symm
  | cons p ps ih =>
    have hcons {b : Bool}
        (h : (splitOperands b ps).map (fun r => (p :: r.1, r.2)) = some (o, [])) :
        (splitOperands b (ps ++ qs)).map (fun r => (p :: r.1, r.2)) =
          (splitOperands false qs).map fun r => (o ++ r.1, r.2) := by
      obtain ⟨r, hr, hro⟩ := Option.map_eq_some_iff.mp h
      obtain ⟨rfl, hrest⟩ := Prod.mk.inj hro
      rw [ih (o := r.1) (by rw [hr, ← hrest]), Option.map_map]
      rfl
    rw [splitOperands] at h
    rw [List.cons_append, splitOperands]
    split at h
    case h_1 => exact hcons h
    case h_2 c hc =>
      split_ifs at h ⊢ with hb hand
      · obtain ⟨r, -, hr⟩ := Option.map_eq_some_iff.mp h
        cases hr
      · exact hcons h

/-! ## Texts that are one operand -/

/-- **The text is one operand**, read as the formula. -/
def Dialect.ReadsAs (d : Dialect) (s : String) (φ : Formula) : Prop :=
  ∃ ns o, d.nodes s = some ns ∧ splitOperands false (parts ns) = some (o, []) ∧
    Formula.ofOperand? o = some φ

theorem Formula.joined_eq_atom {φ : Formula} {rest : List (Connective × Formula)}
    {ns : List Node} (h : φ.joined rest = atom ns) : φ = atom ns ∧ rest = [] := by
  induction rest generalizing φ with
  | nil => exact ⟨h, rfl⟩
  | cons x rest ih =>
    obtain ⟨_ | _, ψ⟩ := x
    · cases (ih h).1
    · cases h

/-- A text that is read as an atom is one operand. -/
theorem Dialect.readsAs_of_condition?_atom {d : Dialect} {s : String} {atom : List Node}
    (h : d.condition? s = some (.atom atom)) : d.ReadsAs s (.atom atom) := by
  obtain ⟨ns, hns, h⟩ := Option.bind_eq_some_iff.mp h
  obtain ⟨r, hr, h⟩ := Option.bind_eq_some_iff.mp h
  obtain ⟨φ, hφ, h⟩ := Option.bind_eq_some_iff.mp h
  obtain ⟨rest, hrest, h⟩ := Option.map_eq_some_iff.mp h
  obtain ⟨rfl, rfl⟩ := Formula.joined_eq_atom h
  obtain ⟨o, rs⟩ := r
  refine ⟨ns, o, hns, ?_, hφ⟩
  cases rs with
  | nil => exact hr
  | cons x rs =>
    obtain ⟨ψ, -, hψ⟩ := Option.bind_eq_some_iff.mp hrest
    obtain ⟨_, -, hcons⟩ := Option.map_eq_some_iff.mp hψ
    cases hcons

variable {d : Dialect} (hd : d.Separates)

include hd

/-- A condition in parentheses is one operand. -/
theorem Dialect.readsAs_group {s : String} {φ : Formula} (h : d.condition? s = some φ) :
    d.ReadsAs ("(" ++ s ++ ")") φ := by
  obtain ⟨ns, hns, hφ⟩ := Option.bind_eq_some_iff.mp h
  have hnodes := nodes_group hd hns ""
  rw [String.append_empty] at hnodes
  exact ⟨[.group ns], [(.group ns, Formula.ofNodes? ns)], hnodes, rfl, hφ⟩

/-- Operands that follow another one, each after its connective. -/
def joinedText : List (Connective × String) → String
  | [] => ""
  | (c, s) :: rest => " " ++ (c.keyword ++ (" " ++ (s ++ joinedText rest)))

omit hd in
theorem startsApart_joinedText (rest : List (Connective × String)) :
    Dialect.StartsApart (joinedText rest) := by
  cases rest with
  | nil => exact Dialect.startsApart_nil
  | cons x rest => exact Dialect.startsApart_blank _

/-- A connective in front of nodes. -/
theorem Dialect.nodes_connective (c : Connective) (t : String) :
    d.nodes (" " ++ (c.keyword ++ (" " ++ t))) =
      (d.nodes t).map (.token (.word c.keyword.toList) :: ·) := by
  rw [nodes_blank hd, nodes_word hd (by cases c <;> decide) (startsApart_blank t), nodes_blank hd]

/-- Operands with connectives between them, node by node. -/
theorem Dialect.nodes_joinedText {s : String} {φ : Formula} (h : d.ReadsAs s φ)
    {rest : List (Connective × String × Formula)} (hrest : ∀ x ∈ rest, d.ReadsAs x.2.1 x.2.2) :
    ∃ ns o os, d.nodes (s ++ joinedText (rest.map fun x => (x.1, x.2.1))) = some ns ∧
      splitOperands false (parts ns) = some (o, os) ∧ Formula.ofOperand? o = some φ ∧
      Formula.ofOperands? os = some (rest.map fun x => (x.1, x.2.2)) := by
  induction rest generalizing s φ with
  | nil =>
    obtain ⟨ns, o, hns, ho, hφ⟩ := h
    rw [List.map_nil, joinedText, String.append_empty]
    exact ⟨ns, o, [], hns, ho, hφ, rfl⟩
  | cons x rest ih =>
    obtain ⟨c, t, ψ⟩ := x
    obtain ⟨hx, hrest⟩ := List.forall_mem_cons.mp hrest
    obtain ⟨ns, o, hns, ho, hφ⟩ := h
    obtain ⟨ms, o', os, hms, ho', hψ, hos⟩ := ih hx hrest
    have hc : (Node.token (.word c.keyword.toList)).connective? = some c := by
      cases c <;> decide
    refine ⟨ns ++ .token (.word c.keyword.toList) :: ms, o, (c, o') :: os, ?_, ?_, hφ, ?_⟩
    · rw [nodes_append hd hns (startsApart_joinedText _), List.map_cons, joinedText,
        nodes_connective hd, hms]
      rfl
    · rw [parts_append, splitOperands_append ho, parts, splitOperands, hc]
      simp [ho']
    · rw [Formula.ofOperands?, hψ, hos]
      rfl

/-- **Operands with connectives between them are read as such.** -/
theorem Dialect.condition?_joined {s : String} {φ : Formula} (h : d.ReadsAs s φ)
    {rest : List (Connective × String × Formula)} (hrest : ∀ x ∈ rest, d.ReadsAs x.2.1 x.2.2) :
    d.condition? (s ++ joinedText (rest.map fun x => (x.1, x.2.1))) =
      some (φ.joined (rest.map fun x => (x.1, x.2.2))) := by
  obtain ⟨ns, o, os, hns, ho, hφ, hos⟩ := nodes_joinedText hd h hrest
  rw [condition?, hns, Option.bind_some, Formula.ofNodes?, Formula.ofParts?, ho, Option.bind_some,
    hφ, Option.bind_some, hos, Option.map_some]

end PortableSql
