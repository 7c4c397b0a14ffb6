import PortableSql.Proofs.Value.Trail

/-!
# The tables of a value

A table stands in a value as a value of its own or in the qualifier of a name.

* **`Value.prefixTables`**: the value with a text before the base of each of its tables; the same
  for names and qualifiers.
* `Value.prefixTables_sequence`, `Value.prefixTables_expression`: its parts, one by one.
* `Qualifier.hasTable`, `Leaf.hasTable`: whether there is a table to begin with.
-/

namespace PortableSql

/-- The qualifier with `p` before the base of each table. -/
def Qualifier.prefixTables (p : String) : Qualifier → Qualifier
  | .none => .none
  | .segments parts => .segments parts
  | .identifier base outer => .identifier base (outer.prefixTables p)
  | .table base outer => .table (p ++ base) (outer.prefixTables p)

/-- The name with `p` before the base of each table in its qualifier. -/
def Name.prefixTables (p : String) (n : Name) : Name := ⟨n.base, n.qualifier.prefixTables p⟩

/-- The name of a table with `p` before its base and that of each table in its qualifier. -/
def Name.prefixTable (p : String) (n : Name) : Name := ⟨p ++ n.base, n.qualifier.prefixTables p⟩

mutual

/-- **The value with `p` before the base of each table in it.** -/
def Value.prefixTables (p : String) : Value → Value
  | .literal l => .literal l
  | .identifier n => .identifier (n.prefixTables p)
  | .column n => .column (n.prefixTables p)
  | .table n => .table (n.prefixTable p)
  | .sequence items => .sequence (prefixTablesAll p items)
  | .expression e => .expression (e.prefixTables p)

/-- The expression with `p` before the base of each table in its values. -/
def Expression.prefixTables (p : String) : Expression → Expression
  | ⟨template, positional, named⟩ =>
    ⟨template, prefixTablesAll p positional, prefixTablesNamed p named⟩

/-- Each value with `p` before the base of each table in it. -/
def prefixTablesAll (p : String) : List Value → List Value
  | [] => []
  | v :: vs => v.prefixTables p :: prefixTablesAll p vs

/-- Each named value with `p` before the base of each table in it, under its token. -/
def prefixTablesNamed (p : String) : List (String × Value) → List (String × Value)
  | [] => []
  | (token, v) :: vs => (token, v.prefixTables p) :: prefixTablesNamed p vs

end

theorem prefixTablesAll_eq_map (p : String) (vs : List Value) :
    prefixTablesAll p vs = vs.map (Value.prefixTables p) :=
  eq_map_of_cons rfl (fun _ _ => rfl) vs

theorem prefixTablesNamed_eq_map (p : String) (ps : List (String × Value)) :
    prefixTablesNamed p ps = ps.map fun q => (q.1, q.2.prefixTables p) :=
  eq_map_of_cons rfl (fun _ _ => rfl) ps

theorem Value.prefixTables_sequence (p : String) (items : List Value) :
    (Value.sequence items).prefixTables p = .sequence (items.map (Value.prefixTables p)) := by
  rw [Value.prefixTables, prefixTablesAll_eq_map]

theorem Value.prefixTables_expression (p template : String) (positional : List Value)
    (named : List (String × Value)) :
    (Value.expression ⟨template, positional, named⟩).prefixTables p =
      .expression ⟨template, positional.map (Value.prefixTables p),
        named.map fun q => (q.1, q.2.prefixTables p)⟩ := by
  rw [Value.prefixTables, Expression.prefixTables, prefixTablesAll_eq_map, prefixTablesNamed_eq_map]

/-! ## Without tables -/

/-- One of the names in the qualifier is that of a table. -/
def Qualifier.hasTable : Qualifier → Bool
  | .none | .segments _ => false
  | .identifier _ outer => outer.hasTable
  | .table _ _ => true

/-- The leaf is a table or has a table in its qualifier. -/
def Leaf.hasTable : Leaf → Bool
  | .identifier n | .column n => n.qualifier.hasTable
  | .table _ => true
  | .literal _ | .raw _ => false

end PortableSql
