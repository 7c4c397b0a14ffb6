import PortableSql.Proofs.Name.Path

/-!
# Names with the same path

A path can be written as a name in several ways: segments may be given as a list, one by one as
identifiers, or as tables. The text of the name is the same for all of them, unless a qualifier
begins with a list of no segments, of which the dot after it is left.

* `NameUse`: a name as an identifier, a column or a table, with its value, its path and the texts of
  its segments.
* `Qualifier.lead`: what stands before the first segment.
* `Dialect.qualifierText_append`, `NameUse.compile_eq`: the text of a name.
* **`NameUse.compile_of_path_eq`**: names with one path have one text, but for that dot.
* `NameUse.empty_segments_leave_dot`: the dot that is left.
-/

namespace PortableSql

/-! ## Names in use -/

/-- What a name is used as. -/
inductive NameUse where
  | identifier | column | table
  deriving Repr, DecidableEq

namespace NameUse

/-- The name as a value. -/
def value : NameUse → Name → Value
  | identifier, n => .identifier n
  | column, n => .column n
  | table, n => .table n

/-- The segments of the name, with the table prefix on tables. -/
def path (d : Dialect) : NameUse → Name → List String
  | identifier, n | column, n => n.path d
  | table, n => n.tablePath d

/-- The last segment as it is written: only the base of a column may stand for all columns. -/
def writeLast (d : Dialect) : NameUse → String → String
  | column, s => if s = "*" then "*" else d.quote s
  | identifier, s | table, s => d.quote s

/-- **The segments of a path as they are written.** -/
def write (d : Dialect) (u : NameUse) (path : List String) : List String :=
  path.dropLast.map d.quote ++ (path.getLast?.map (u.writeLast d)).toList

end NameUse

/-- What stands before the first segment of a qualifier: nothing, or the dot after no segments. -/
def Qualifier.lead : Qualifier → String
  | .none => ""
  | .segments parts => if parts = [] then "." else ""
  | .identifier _ outer | .table _ outer => outer.lead

/-! ## Texts -/

namespace Qualifier

theorem lead_of_filled {q : Qualifier} (h : q.Filled) : q.lead = "" := by
  induction q with
  | none => rfl
  | segments parts => exact if_neg h
  | identifier base outer ih => exact ih h
  | table base outer ih => exact ih h

theorem lead_of_not_filled {q : Qualifier} (h : ¬q.Filled) : q.lead = "." := by
  induction q with
  | none => exact absurd trivial h
  | segments parts => exact if_pos (Decidable.not_not.mp h)
  | identifier base outer ih => exact ih h
  | table base outer ih => exact ih h

theorem lead_eq_lead_iff {p q : Qualifier} : p.lead = q.lead ↔ (p.Filled ↔ q.Filled) := by
  by_cases hp : p.Filled <;> by_cases hq : q.Filled <;>
    simp [hp, hq, lead_of_filled, lead_of_not_filled]

end Qualifier

/-- **A qualifier before a segment**: its own segments, with a dot after each of them. -/
theorem Dialect.qualifierText_append (d : Dialect) (q : Qualifier) (s : String) :
    d.qualifierText q ++ s = q.lead ++ Text.join "." ((q.path d).map d.quote ++ [s]) := by
  have hjoin {parts : List String} (h : parts ≠ []) (s : String) :
      Text.join "." (parts.map d.quote) ++ "." ++ s = Text.join "." (parts.map d.quote ++ [s]) :=
    (Text.join_concat "." (fun hx => h (List.map_eq_nil_iff.mp hx)) s).symm
  induction q generalizing s with
  | none => rfl
  | segments parts =>
    by_cases h : parts = []
    · subst h
      rfl
    · rw [Qualifier.lead, if_neg h, String.empty_append]
      exact hjoin h s
  | identifier base outer ih =>
    rw [qualifierText, ih, Qualifier.path, ← hjoin (List.concat_ne_nil base _), List.map_append]
    simp only [Qualifier.lead, String.append_assoc]
    rfl
  | table base outer ih =>
    rw [qualifierText, ih, Qualifier.path, ← hjoin (List.concat_ne_nil _ _), List.map_append]
    simp only [Qualifier.lead, String.append_assoc]
    rfl

namespace NameUse

theorem write_concat (d : Dialect) (u : NameUse) (outer : List String) (s : String) :
    u.write d (outer ++ [s]) = outer.map d.quote ++ [u.writeLast d s] := by
  rw [write, List.dropLast_concat, List.getLast?_concat]
  rfl

/-- **The text of a name**: the segments of its path, with dots between them. -/
theorem compile_eq (d : Dialect) (u : NameUse) (n : Name) :
    (u.value n).compile d =
      .ok (n.qualifier.lead ++ Text.join "." (u.write d (u.path d n))) := by
  cases u with
  | identifier =>
    rw [path, Name.path, write_concat, ← d.qualifierText_append]
    rfl
  | column =>
    rw [path, Name.path, write_concat, ← d.qualifierText_append]
    rfl
  | table =>
    rw [path, Name.tablePath, write_concat, ← d.qualifierText_append]
    rfl

/-- **The text of a name depends on its path**, and on whether a qualifier begins with a list of no
segments. Dotted texts and names that are given by their segments have no such qualifier. -/
theorem compile_of_path_eq (d : Dialect) (u : NameUse) (m n : Name) :
    (u.value n).compile d =
        .ok (n.qualifier.lead ++ Text.join "." (u.write d (u.path d n))) ∧
      (n.qualifier.lead = "" ↔ n.qualifier.Filled) ∧
      (u.path d m = u.path d n → ((u.value m).compile d = (u.value n).compile d ↔
        (m.qualifier.Filled ↔ n.qualifier.Filled))) ∧
      (∀ text, (Name.dotted text).qualifier.Filled) ∧
      ∀ segments, (Name.ofSegments segments).qualifier.Filled := by
  refine ⟨u.compile_eq d n, ?_, fun h => ?_, fun text => (Name.path_dotted d text).1,
    fun segments => ?_⟩
  · have hnone := Qualifier.lead_eq_lead_iff (p := n.qualifier) (q := .none)
    simpa [Qualifier.lead, Qualifier.Filled] using hnone
  · rw [compile_eq, compile_eq, h, Except.ok.injEq, ← Qualifier.lead_eq_lead_iff]
    exact String.append_left_inj _
  · by_cases hs : segments = []
    · subst hs
      trivial
    · exact (Name.path_ofSegments d hs).1

/-- A schema and a table that is given as a list, as identifiers, and as a table with its prefix. -/
theorem compile_of_path_eq_segments :
    let d : Dialect := .prefixed (.builtin .mysql) "p_"
    let m : Name := ⟨"id", .segments ["shop", "p_orders"]⟩
    let n : Name := ⟨"id", .table "orders" (.identifier "shop" .none)⟩
    column.path d m = column.path d n ∧ m.qualifier.Filled ∧ n.qualifier.Filled ∧
      (column.value m).compile d = (column.value n).compile d ∧
      (column.value n).compile d = .ok "`shop`.`p_orders`.`id`" := by
  intro d m n
  have hpath : column.path d m = column.path d n := by decide
  have hm : m.qualifier.Filled := List.cons_ne_nil _ _
  obtain ⟨htext, -, hsame, -, -⟩ := compile_of_path_eq d column m n
  exact ⟨hpath, hm, trivial, (hsame hpath).mpr ⟨fun _ => trivial, fun _ => hm⟩,
    htext.trans (congrArg Except.ok (by decide))⟩

/-- **A list of no segments leaves its dot**: the paths are the same, the texts are not. -/
theorem empty_segments_leave_dot :
    let d : Dialect := .builtin .generic
    identifier.path d ⟨"x", .segments []⟩ = identifier.path d ⟨"x", .none⟩ ∧
      (identifier.value ⟨"x", .segments []⟩).compile d = .ok ".\"x\"" ∧
      (identifier.value ⟨"x", .none⟩).compile d = .ok "\"x\"" :=
  ⟨rfl, rfl, rfl⟩

end NameUse

end PortableSql
