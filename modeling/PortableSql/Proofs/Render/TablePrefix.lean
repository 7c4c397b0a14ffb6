import PortableSql.Proofs.Render.Follow
import PortableSql.Proofs.Render.Outcome
import PortableSql.Proofs.Value.Tables

/-!
# The table prefix renames tables

A value is written with a table prefix as the value with renamed tables is written without one.

* `Dialect.qualifierText_prefixed`, `Dialect.identifierText_prefixed`,
  `Dialect.columnText_prefixed`, `Dialect.tableText_prefixed`: names.
* **`Value.walk_prefixed`**: walks.
* `Value.compile_eq_of_walk_eq`, `Value.prepare_eq_of_walk_eq`: dialects that differ in their table
  prefix alone render equal walks equally.
* **`Value.render_prefixed`**: both renderers.
-/

namespace PortableSql

variable (d : Dialect) (p q : String)

/-! ## Names -/

namespace Dialect

theorem quoteTable_prefixed (base : String) :
    (Dialect.prefixed d p).quoteTable base = (Dialect.prefixed d "").quoteTable (p ++ base) := by
  change d.quote (p ++ base) = d.quote ("" ++ (p ++ base))
  rw [String.empty_append]

theorem qualifierText_prefixed (outer : Qualifier) :
    (Dialect.prefixed d p).qualifierText outer =
      (Dialect.prefixed d "").qualifierText (outer.prefixTables p) := by
  induction outer with
  | none => rfl
  | segments parts => rfl
  | identifier base outer ih =>
    rw [qualifierText, ih]
    rfl
  | table base outer ih =>
    rw [qualifierText, ih, quoteTable_prefixed]
    rfl

theorem identifierText_prefixed (n : Name) :
    (Dialect.prefixed d p).identifierText n =
      (Dialect.prefixed d "").identifierText (n.prefixTables p) := by
  rw [identifierText, qualifierText_prefixed]
  rfl

theorem columnText_prefixed (n : Name) :
    (Dialect.prefixed d p).columnText n =
      (Dialect.prefixed d "").columnText (n.prefixTables p) := by
  rw [columnText, qualifierText_prefixed]
  rfl

theorem tableText_prefixed (n : Name) :
    (Dialect.prefixed d p).tableText n = (Dialect.prefixed d "").tableText (n.prefixTable p) := by
  rw [tableText, qualifierText_prefixed, quoteTable_prefixed]
  rfl

/-- Without a table the prefix is of no account. -/
theorem qualifierText_of_hasTable_eq_false {outer : Qualifier} (h : outer.hasTable = false) :
    (Dialect.prefixed d p).qualifierText outer = (Dialect.prefixed d q).qualifierText outer := by
  induction outer with
  | none => rfl
  | segments parts => rfl
  | identifier base outer ih =>
    rw [qualifierText, ih h]
    rfl
  | table base outer => cases h

theorem draft_of_hasTable_eq_false {x : Leaf} (h : x.hasTable = false) :
    x.draft (.prefixed d p) = x.draft (.prefixed d q) := by
  cases x with
  | literal l => rfl
  | identifier n =>
    rw [Leaf.draft, identifierText, d.qualifierText_of_hasTable_eq_false p q h]
    rfl
  | column n =>
    rw [Leaf.draft, columnText, d.qualifierText_of_hasTable_eq_false p q h]
    rfl
  | table n => cases h
  | raw sql => rfl

end Dialect

/-! ## Values -/

theorem Value.walk_prefixed (v : Value) :
    v.walk (.prefixed d p) = (v.prefixTables p).walk (.prefixed d "") := by
  induction v with
  | literal l => rfl
  | identifier n => exact congrArg Walk.text (d.identifierText_prefixed p n)
  | column n => exact congrArg Walk.text (d.columnText_prefixed p n)
  | table n => exact congrArg Walk.text (d.tableText_prefixed p n)
  | sequence items ih =>
    rw [Value.prefixTables_sequence, Value.walk_sequence, Value.walk_sequence, List.map_map,
      List.map_congr_left ih]
    rfl
  | expression template positional named ihp ihn =>
    have hn : (named.map fun m => (m.1, m.2.walk (.prefixed d p))) =
        named.map fun m => (m.1, (m.2.prefixTables p).walk (.prefixed d "")) :=
      List.map_congr_left fun m hm => by rw [ihn m hm]
    rw [Value.prefixTables_expression, Value.walk_expression, Value.walk_expression,
      List.map_congr_left ihp, hn, List.isEmpty_map, List.isEmpty_map, List.map_map, List.map_map]
    rfl

section

variable {d} {p q}

/-- The table prefix has no part in quoting. -/
theorem Dialect.quoteEach_prefixed (ls : List Literal) :
    (Dialect.prefixed d p).quoteEach ls = (Dialect.prefixed d q).quoteEach ls := by
  induction ls with
  | nil => rfl
  | cons l ls ih =>
    have hl : (Dialect.prefixed d p).quoteLiteral l = (Dialect.prefixed d q).quoteLiteral l := by
      cases l <;> rfl
    rw [quoteEach, hl, ih, quoteEach]

theorem Value.compile_eq_of_walk_eq {v w : Value}
    (h : v.walk (.prefixed d p) = w.walk (.prefixed d q)) :
    v.compile (.prefixed d p) = w.compile (.prefixed d q) := by
  rw [Value.compile_eq, Value.compile_eq, h, Dialect.quoteEach_prefixed]

theorem Value.prepare_eq_of_walk_eq {v w : Value}
    (h : v.walk (.prefixed d p) = w.walk (.prefixed d q)) :
    v.prepare (.prefixed d p) = w.prepare (.prefixed d q) := by
  rw [Value.prepare_eq, Value.prepare_eq, h]
  rfl

end

/-- **The table prefix renames tables, and nothing else.** Both renderers write a value with a table
prefix as they write the value with renamed tables without one. If no leaf that they reach has a
table, then every prefix gives the same. -/
theorem Value.render_prefixed (d : Dialect) (v : Value) :
    (∀ p, v.compile (.prefixed d p) = (v.prefixTables p).compile (.prefixed d "") ∧
      v.prepare (.prefixed d p) = (v.prefixTables p).prepare (.prefixed d "")) ∧
    ((∀ x ∈ v.trail.leaves, x.hasTable = false) → ∀ p q,
      v.compile (.prefixed d p) = v.compile (.prefixed d q) ∧
        v.prepare (.prefixed d p) = v.prepare (.prefixed d q)) := by
  refine ⟨fun p => ?_, fun h p q => ?_⟩
  · have hw := v.walk_prefixed d p
    exact ⟨compile_eq_of_walk_eq hw, prepare_eq_of_walk_eq hw⟩
  · have hw : v.walk (.prefixed d p) = v.walk (.prefixed d q) :=
      Value.walk_congr fun x hx => d.draft_of_hasTable_eq_false p q (h x hx)
    exact ⟨compile_eq_of_walk_eq hw, prepare_eq_of_walk_eq hw⟩

/-- Tables that are not reached: under a token that does not occur, and after the mismatch that ends
the traversal. -/
theorem Value.render_prefixed_unreached :
    let t : Value := .table ⟨"t", .none⟩
    let v : Value := .sequence [.expression ⟨"? = :n", [.column ⟨"id", .segments ["s"]⟩],
      [(":n", .literal (.int 1)), (":m", t)]⟩, .expression ⟨"?, ?", [.literal .null], []⟩, t]
    (∀ x ∈ v.trail.leaves, x.hasTable = false) ∧
      v.prepare (.prefixed (.builtin .mysql) "p_") =
        v.prepare (.prefixed (.builtin .mysql) "q_") := by
  intro t v
  have h : ∀ x ∈ v.trail.leaves, x.hasTable = false := by decide
  exact ⟨h, ((Value.render_prefixed (.builtin .mysql) v).2 h "p_" "q_").2⟩

end PortableSql
