import PortableSql.Proofs.Render.Contents
import PortableSql.Proofs.Statement.Assembly
import PortableSql.Proofs.Statement.Calls

/-!
# Statements clause by clause

A statement is compiled to its clauses in their order, each with its keyword and its contents. No
placeholder shows: only contents can fail.

* `Phrase.list`, `Phrase.conditions`, `Phrase.count`, `Phrase.orderBy`: clauses that are left out
  without content.
* **`Select.phrases`**, **`Insert.phrases`**, **`Update.phrases`**, **`Delete.phrases`**,
  **`Compound.phrases`**, **`FromClause.phrases`**: what is written for a statement.
* `Select.fits_clauses` and its kin: the clauses of a statement fit together.
* `Select.compile_eq` and its kin, `FromClause.writtenAs`: a statement is written as its phrases.
* `Phrase.write_eq_error_iff`: the error is that of the first content that fails.
* **`Value.CompilesAs`**, **`compilesAs_built`**: what is written for statements that calls build.
-/

namespace PortableSql

/-! ## What is written -/

/-- The count that is written: at most the greatest 64-bit integer. -/
def cappedCount (n : Nat) : Nat := min n (Nat.pow 2 63 - 1)

namespace Phrase

/-- A value after its keyword. -/
def optional (lead : String) : Option Value → List Phrase
  | none => []
  | some v => [.keyword lead, .content v]

/-- A list after its keyword, unless it is empty. -/
def list (lead : String) : List Value → List Phrase
  | [] => []
  | items => [.keyword lead, .content (.sequence items)]

/-- Conditions after their keyword, unless they have no text and no values. -/
def conditions (lead : String) : Option Conditions → List Phrase
  | none => []
  | some c =>
    if c.template = "" ∧ c.operands = [] then [] else [.keyword lead, .content c.toValue]

/-- A count after its keyword. -/
def count (lead : String) : Option Nat → List Phrase
  | none => []
  | some n => [.keyword lead, .keyword (toString (cappedCount n))]

end Phrase

/-- An item with its direction. -/
def OrderItem.phrases : OrderItem → List Phrase
  | ⟨v, .ascending⟩ => [.content v, .keyword " ASC"]
  | ⟨v, .descending⟩ => [.content v, .keyword " DESC"]

/-- The items of an order after the keyword, unless there are none. -/
def Phrase.orderBy : List OrderItem → List Phrase
  | [] => []
  | items => .keyword " ORDER BY " :: commas (items.map OrderItem.phrases)

/-- **What is written for a query.** -/
def Select.phrases (q : Select) : List Phrase :=
  .keyword "SELECT " :: (if q.distinct then [.keyword "DISTINCT "] else [])
    ++ (if q.columns.isEmpty then [.keyword "*"] else [.content (.sequence q.columns)])
    ++ Phrase.optional " FROM " q.source
    ++ Phrase.conditions " WHERE " q.filter
    ++ Phrase.list " GROUP BY " q.groupBy
    ++ Phrase.conditions " HAVING " q.having
    ++ Phrase.orderBy q.orderBy ++ Phrase.count " LIMIT " q.limit
    ++ Phrase.count " OFFSET " q.offset

namespace Insert

/-- A row in parentheses. -/
def rowPhrases (row : List Value) : List Phrase :=
  [.keyword "(", .content (.sequence row), .keyword ")"]

/-- What is written for the rows. -/
def Source.phrases : Source → List Phrase
  | .query q => .keyword " " :: q.phrases
  | .rows [] => [.keyword " DEFAULT VALUES"]
  | .rows given => .keyword " VALUES " :: Phrase.commas (given.map rowPhrases)

/-- **What is written for an insertion.** -/
def phrases (i : Insert) : List Phrase :=
  [.keyword "INSERT INTO ", .content i.table]
    ++ (if i.columns.isEmpty then []
      else [.keyword " (", .content (.sequence i.columns), .keyword ")"])
    ++ i.source.phrases

end Insert

namespace Update

/-- `column = value`. -/
def Assignment.phrases (a : Assignment) : List Phrase :=
  [.content (.column a.column), .keyword " = ", .content a.value]

/-- The assignments after their keyword, unless there are none. -/
def assignmentPhrases : List Assignment → List Phrase
  | [] => []
  | assignments => .keyword " SET " :: Phrase.commas (assignments.map Assignment.phrases)

/-- **What is written for an update.** -/
def phrases (u : Update) : List Phrase :=
  [.keyword "UPDATE ", .content u.table] ++ assignmentPhrases u.assignments
    ++ Phrase.conditions " WHERE " u.filter ++ Phrase.orderBy u.orderBy
    ++ Phrase.count " LIMIT " u.limit

end Update

/-- **What is written for a deletion.** -/
def Delete.phrases (d : Delete) : List Phrase :=
  [.keyword "DELETE FROM ", .content d.table] ++ Phrase.conditions " WHERE " d.filter
    ++ Phrase.orderBy d.orderBy ++ Phrase.count " LIMIT " d.limit

namespace Compound

/-- An operand after its operator. -/
def Operand.phrases : Operand → List Phrase
  | ⟨.union, false, q⟩ => [.keyword " UNION ", .content q]
  | ⟨.union, true, q⟩ => [.keyword " UNION ALL ", .content q]
  | ⟨.intersect, false, q⟩ => [.keyword " INTERSECT ", .content q]
  | ⟨.intersect, true, q⟩ => [.keyword " INTERSECT ALL ", .content q]
  | ⟨.except, false, q⟩ => [.keyword " EXCEPT ", .content q]
  | ⟨.except, true, q⟩ => [.keyword " EXCEPT ALL ", .content q]

/-- **What is written for a compound query.** -/
def phrases (c : Compound) : List Phrase :=
  .content c.first :: c.operands.flatMap Operand.phrases
    ++ Phrase.orderBy c.orderBy ++ Phrase.count " LIMIT " c.limit
    ++ Phrase.count " OFFSET " c.offset

end Compound

namespace FromClause

/-- What is written for a part. -/
def Part.phrases : Part → List Phrase
  | .table v => [.keyword ", ", .content v]
  | .joined .inner v => [.keyword " INNER JOIN ", .content v]
  | .joined .left v => [.keyword " LEFT JOIN ", .content v]
  | .joined .right v => [.keyword " RIGHT JOIN ", .content v]
  | .joined .full v => [.keyword " FULL JOIN ", .content v]
  | .joined .cross v => [.keyword " CROSS JOIN ", .content v]
  | .on c => [.keyword " ON ", .content c.toValue]
  | .using names =>
    [.keyword " USING (", .content (.sequence (names.map fun n => .column (.dotted n))),
      .keyword ")"]

/-- **What is written for the tables to select from.** -/
def phrases (f : FromClause) : List Phrase := .content f.first :: f.parts.flatMap Part.phrases

end FromClause

/-! ## Parts -/

/-- Conditions are written unless they are empty. -/
theorem Phrase.conditions_some (lead : String) (c : Conditions) :
    conditions lead (some c) =
      if c.isEmpty then [] else [.keyword lead, .content c.toValue] := by
  simp only [conditions, Conditions.isEmpty, Bool.and_eq_true, List.isEmpty_iff, decide_eq_true_eq,
    and_comm]

theorem OrderItem.phrases_eq (o : OrderItem) :
    o.phrases = [.content o.value, .keyword (" " ++ o.direction.keyword)] := by
  obtain ⟨v, _ | _⟩ := o <;> rfl

theorem Compound.Operand.phrases_eq (o : Operand) :
    o.phrases = [.keyword (" " ++ o.operator.keyword ++ (if o.all then " ALL" else "") ++ " "),
      .content o.query] := by
  obtain ⟨_ | _ | _, _ | _, q⟩ := o <;> rfl

theorem FromClause.Part.phrases_joined (kind : Join) (v : Value) :
    phrases (.joined kind v) = [.keyword (" " ++ kind.keyword ++ " "), .content v] := by
  cases kind <;> rfl

section

variable (d : Dialect)

/-- Phrases are written part by part. -/
theorem Phrase.write_append_congr {ps ps' qs qs' : List Phrase}
    (hp : write (Value.compile d) ps = write (Value.compile d) ps')
    (hq : write (Value.compile d) qs = write (Value.compile d) qs') :
    write (Value.compile d) (ps ++ qs) = write (Value.compile d) (ps' ++ qs') := by
  rw [write_append, write_append, hp, hq]

/-- A template with positional values is written as its phrases. -/
theorem Expression.compile_withParameters {template : String} {v : Value} {vs : List Value}
    {ps : List Phrase} (h : Template.phrases? [] (Template.split template) (v :: vs) = some ps) :
    (Value.expression (.withParameters template (v :: vs))).compile d =
      Phrase.write (Value.compile d) ps := by
  have hwritten : (Value.expression (.withParameters template (v :: vs))).WrittenAs ps :=
    Value.writtenAs_of_split h
  exact hwritten.render_eq (renders_compile d)

theorem OrderItem.compile_eq (o : OrderItem) :
    o.toValue.compile d = Phrase.write (Value.compile d) o.phrases := by
  have hsplit : Template.split ("? " ++ o.direction.keyword) =
      [.positional, .text (" " ++ o.direction.keyword)] := by
    cases o.direction <;> decide
  refine Expression.compile_withParameters d ?_
  rw [hsplit, OrderItem.phrases_eq]
  rfl

theorem Insert.writtenAs_rowValue (row : List Value) :
    (rowValue row).WrittenAs (rowPhrases row) := by
  have hsplit : Template.split "(?)" = [.text "(", .positional, .text ")"] := by decide
  refine Value.writtenAs_of_split ?_
  change Template.phrases? [] (Template.split "(?)") [.sequence row] = _
  rw [hsplit]
  rfl

theorem Insert.compile_rowValue (row : List Value) :
    (rowValue row).compile d = Phrase.write (Value.compile d) (rowPhrases row) :=
  (writtenAs_rowValue row).render_eq (renders_compile d)

theorem Update.Assignment.compile_eq (a : Assignment) :
    a.toValue.compile d = Phrase.write (Value.compile d) a.phrases := by
  have hsplit : Template.split "? = ?" = [.positional, .text " = ", .positional] := by decide
  refine Expression.compile_withParameters d ?_
  rw [hsplit]
  rfl

theorem Value.compile_aliased (v : Value) (label : String) :
    (v.aliased label).compile d =
      Phrase.write (Value.compile d)
        [.content v, .keyword " AS ", .content (.identifier ⟨label, .none⟩)] := by
  have hsplit : Template.split "? AS ?" = [.positional, .text " AS ", .positional] := by decide
  refine Expression.compile_withParameters d ?_
  rw [hsplit]
  rfl

/-! ## Clauses -/

theorem Phrase.write_keyword_content {lead : String} {v : Value} {ps : List Phrase}
    (h : v.compile d = write (Value.compile d) ps) :
    write (Value.compile d) [.keyword lead, .content v] =
      write (Value.compile d) (.keyword lead :: ps) := by
  rw [write, write_content, h, write]

theorem Clause.write_orderBy (items : List OrderItem) :
    Phrase.write (Value.compile d) ((orderBy items).flatMap phrases) =
      Phrase.write (Value.compile d) (Phrase.orderBy items) := by
  cases items with
  | nil => rfl
  | cons o items =>
    refine Phrase.write_keyword_content d ?_
    refine (renders_compile d).write_sequence (OrderItem.compile_eq d) (fun o => ?_) (o :: items)
    refine ⟨" " ++ o.direction.keyword, ?_, by simp [OrderItem.phrases_eq]⟩
    cases o.direction <;> decide

theorem compile_countValue (n : Nat) :
    (Clause.countValue n).compile d = .ok (toString (cappedCount n)) := by
  have hn : (Int64.ofNat (min n (Nat.pow 2 63 - 1))).toInt = cappedCount n :=
    Int64.toInt_ofNat_of_lt (Nat.lt_of_le_of_lt (Nat.min_le_right ..) (by decide))
  rw [Clause.countValue, Value.compile, Dialect.quoteLiteral, hn]
  rfl

theorem Clause.write_count {lead : String} (hlead : lead ≠ "") (name : String) (n : Option Nat) :
    Phrase.write (Value.compile d) ((count lead name n).flatMap phrases) =
      Phrase.write (Value.compile d) (Phrase.count lead n) := by
  cases n with
  | none => rfl
  | some n =>
    have hphrases : (count lead name (some n)).flatMap phrases =
        [.keyword lead, .content (countValue n)] := by
      simp [count, optional, phrases, hlead]
    rw [hphrases]
    refine Phrase.write_keyword_content d ?_
    rw [compile_countValue, Phrase.write, Phrase.write, pure_bind, String.append_empty]
    rfl

theorem Clause.phrases_optional {lead : String} (hlead : lead ≠ "") (name : String)
    (v : Option Value) : (optional lead name v).flatMap phrases = Phrase.optional lead v := by
  cases v with
  | none => rfl
  | some v => simp [optional, phrases, hlead, Phrase.optional]

theorem Clause.phrases_list {lead : String} (hlead : lead ≠ "") (name : String)
    (items : List Value) : (list lead name items).flatMap phrases = Phrase.list lead items := by
  cases items with
  | nil => rfl
  | cons v items => simp [list, phrases, hlead, Phrase.list]

theorem Clause.phrases_conditions {lead : String} (hlead : lead ≠ "") (name : String)
    (c : Option Conditions) :
    (conditions lead name c).flatMap phrases = Phrase.conditions lead c := by
  cases c with
  | none => rfl
  | some c =>
    rw [Phrase.conditions_some]
    cases h : c.isEmpty <;> simp [conditions, phrases, hlead, h]

/-! ## Statements -/

/-- The shapes that the clauses of a query have. -/
def Select.shapes : List Clause.Shape :=
  [("SELECT ", none)] ++ [("DISTINCT ", none)] ++ [("*", none), ("", some "columns")]
    ++ [(" FROM ", some "table")] ++ [(" WHERE ", some "where")] ++ [(" GROUP BY ", some "groupby")]
    ++ [(" HAVING ", some "having")] ++ [(" ORDER BY ", some "orderby")]
    ++ [(" LIMIT ", some "limit")] ++ [(" OFFSET ", some "offset")]

theorem Select.shape_clauses (q : Select) : (q.clauses.map Clause.shape).Sublist shapes := by
  have hdistinct : ((if q.distinct then [Clause.text "DISTINCT "] else []).map Clause.shape).Sublist
      [("DISTINCT ", none)] := by
    cases q.distinct with
    | false => exact List.nil_sublist _
    | true => exact .refl _
  have hcolumns : ([columnClause q.columns].map Clause.shape).Sublist
      [("*", none), ("", some "columns")] := by
    cases q.columns with
    | nil => exact List.singleton_sublist.mpr List.mem_cons_self
    | cons v columns =>
      exact List.singleton_sublist.mpr (List.mem_cons_of_mem _ List.mem_cons_self)
  simp only [clauses, List.map_append]
  exact (((((((((List.Sublist.refl _).append hdistinct).append hcolumns).append
    (Clause.shape_optional ..)).append (Clause.shape_conditions ..)).append
    (Clause.shape_list ..)).append (Clause.shape_conditions ..)).append
    (Clause.shape_list ..)).append (Clause.shape_optional ..)).append (Clause.shape_optional ..)

theorem Select.fits_clauses (q : Select) : Clause.Fits (q.clauses.map Clause.shape) :=
  .of_sublist q.shape_clauses (by decide) (by decide) (by decide)

theorem Select.compile_eq (q : Select) :
    q.toValue.compile d = Phrase.write (Value.compile d) q.phrases := by
  have hhead : ([Clause.text "SELECT "] ++ (if q.distinct then [Clause.text "DISTINCT "] else [])
      ++ [columnClause q.columns]).flatMap Clause.phrases =
      .keyword "SELECT " :: (if q.distinct then [Phrase.keyword "DISTINCT "] else [])
        ++ (if q.columns.isEmpty then [.keyword "*"] else [.content (.sequence q.columns)]) := by
    cases q.distinct <;> cases q.columns <;> rfl
  rw [toValue, toExpression, (renders_compile d).write_assemble q.fits_clauses, clauses, phrases]
  simp only [List.flatMap_append] at hhead ⊢
  rw [hhead, Clause.phrases_optional (by decide), Clause.filter,
    Clause.phrases_conditions (by decide), Clause.phrases_list (by decide),
    Clause.phrases_conditions (by decide)]
  exact Phrase.write_append_congr d (Phrase.write_append_congr d (Phrase.write_append_congr d rfl
    (Clause.write_orderBy d _)) (Clause.write_count d (by decide) ..))
    (Clause.write_count d (by decide) ..)

/-- A keyword before the table is written with the blank after it. -/
theorem Phrase.write_keyword_table (lead : String) (table : Value) :
    write (Value.compile d) ([Clause.text lead, .slot " " "table" table].flatMap Clause.phrases) =
      write (Value.compile d) [.keyword (lead ++ " "), .content table] := by
  change write _ [.keyword lead, .keyword " ", .content table] = _
  simp only [write, bind_assoc, pure_bind, String.append_assoc]

/-- The shapes that the clauses of an insertion fit in, with or without columns. -/
theorem Insert.fits_shapes :
    ∀ columns ∈ [[], [(" (", none), ("", some "columns"), (")", none)]],
    ∀ source ∈ [(" ", some "select"), (" DEFAULT VALUES", none), (" VALUES ", some "values")],
      Clause.Fits ([("INSERT INTO", none), (" ", some "table")] ++ columns ++ [source]) := by
  decide

theorem Insert.fits_clauses (i : Insert) : Clause.Fits (i.clauses.map Clause.shape) := by
  simp only [clauses, List.map_append]
  refine fits_shapes _ ?_ _ ?_
  · cases i.columns with
    | nil => exact List.mem_cons_self
    | cons v columns => exact List.mem_cons_of_mem _ List.mem_cons_self
  · rcases i.source with (_ | ⟨row, rows⟩) | q <;> simp [Source.clause, Clause.shape]

theorem Insert.Source.write_clause (s : Source) :
    Phrase.write (Value.compile d) s.clause.phrases = Phrase.write (Value.compile d) s.phrases := by
  rcases s with (_ | ⟨row, rows⟩) | q
  · rfl
  · refine Phrase.write_keyword_content d ?_
    exact (renders_compile d).write_sequence (compile_rowValue d)
      (fun row => ⟨"(", by decide, List.mem_cons_self⟩) (row :: rows)
  · exact Phrase.write_keyword_content d (q.compile_eq d)

theorem Insert.compile_eq (i : Insert) :
    i.toValue.compile d = Phrase.write (Value.compile d) i.phrases := by
  have hcolumns : (columnClauses i.columns).flatMap Clause.phrases =
      if i.columns.isEmpty then []
      else [.keyword " (", .content (.sequence i.columns), .keyword ")"] := by
    cases i.columns <;> rfl
  rw [toValue, toExpression, (renders_compile d).write_assemble i.fits_clauses, clauses, phrases,
    List.flatMap_append, List.flatMap_append, hcolumns, List.flatMap_singleton]
  exact Phrase.write_append_congr d
    (Phrase.write_append_congr d (Phrase.write_keyword_table d "INSERT INTO" i.table) rfl)
    (i.source.write_clause d)

/-- The shapes that the clauses of an update have. -/
def Update.shapes : List Clause.Shape :=
  [("UPDATE", none), (" ", some "table")] ++ [(" SET ", some "set")] ++ [(" WHERE ", some "where")]
    ++ [(" ORDER BY ", some "orderby")] ++ [(" LIMIT ", some "limit")]

theorem Update.shape_clauses (u : Update) : (u.clauses.map Clause.shape).Sublist shapes := by
  simp only [clauses, List.map_append]
  exact ((((List.Sublist.refl _).append (Clause.shape_list ..)).append
    (Clause.shape_conditions ..)).append (Clause.shape_list ..)).append (Clause.shape_optional ..)

theorem Update.write_assignments (assignments : List Assignment) :
    Phrase.write (Value.compile d)
        ((Clause.list " SET " "set" (assignments.map Assignment.toValue)).flatMap Clause.phrases) =
      Phrase.write (Value.compile d) (assignmentPhrases assignments) := by
  cases assignments with
  | nil => rfl
  | cons a assignments =>
    refine Phrase.write_keyword_content d ?_
    exact (renders_compile d).write_sequence (Assignment.compile_eq d)
      (fun a => ⟨" = ", by decide, by simp [Assignment.phrases]⟩) (a :: assignments)

theorem Update.fits_clauses (u : Update) : Clause.Fits (u.clauses.map Clause.shape) :=
  .of_sublist u.shape_clauses (by decide) (by decide) (by decide)

theorem Update.compile_eq (u : Update) :
    u.toValue.compile d = Phrase.write (Value.compile d) u.phrases := by
  rw [toValue, toExpression, (renders_compile d).write_assemble u.fits_clauses, clauses, phrases]
  simp only [List.flatMap_append]
  rw [Clause.filter, Clause.phrases_conditions (by decide)]
  exact Phrase.write_append_congr d (Phrase.write_append_congr d (Phrase.write_append_congr d
    (Phrase.write_append_congr d (Phrase.write_keyword_table d "UPDATE" u.table)
    (write_assignments d _)) rfl) (Clause.write_orderBy d _)) (Clause.write_count d (by decide) ..)

/-- The shapes that the clauses of a deletion have. -/
def Delete.shapes : List Clause.Shape :=
  [("DELETE FROM", none), (" ", some "table")] ++ [(" WHERE ", some "where")]
    ++ [(" ORDER BY ", some "orderby")] ++ [(" LIMIT ", some "limit")]

theorem Delete.shape_clauses (q : Delete) : (q.clauses.map Clause.shape).Sublist shapes := by
  simp only [clauses, List.map_append]
  exact (((List.Sublist.refl _).append (Clause.shape_conditions ..)).append
    (Clause.shape_list ..)).append (Clause.shape_optional ..)

theorem Delete.fits_clauses (q : Delete) : Clause.Fits (q.clauses.map Clause.shape) :=
  .of_sublist q.shape_clauses (by decide) (by decide) (by decide)

theorem Delete.compile_eq (q : Delete) :
    q.toValue.compile d = Phrase.write (Value.compile d) q.phrases := by
  rw [toValue, toExpression, (renders_compile d).write_assemble q.fits_clauses, clauses, phrases]
  simp only [List.flatMap_append]
  rw [Clause.filter, Clause.phrases_conditions (by decide)]
  exact Phrase.write_append_congr d (Phrase.write_append_congr d (Phrase.write_append_congr d
    (Phrase.write_keyword_table d "DELETE FROM" q.table) rfl) (Clause.write_orderBy d _))
    (Clause.write_count d (by decide) ..)

/-- The shapes that the clauses of a compound query have. -/
def Compound.shapes : List Clause.Shape :=
  [("", some "queries")] ++ [(" ORDER BY ", some "orderby")] ++ [(" LIMIT ", some "limit")]
    ++ [(" OFFSET ", some "offset")]

theorem Compound.shape_clauses (c : Compound) : (c.clauses.map Clause.shape).Sublist shapes := by
  simp only [clauses, List.map_append]
  exact (((List.Sublist.refl _).append (Clause.shape_list ..)).append
    (Clause.shape_optional ..)).append (Clause.shape_optional ..)

theorem Combination.split_keyword (operator : Combination) (all : Bool) :
    Template.split (" " ++ operator.keyword ++ (if all then " ALL" else "") ++ " ?") =
      [.text (" " ++ operator.keyword ++ (if all then " ALL" else "") ++ " "), .positional] := by
  cases operator <;> cases all <;> decide

theorem Compound.compile_queries (c : Compound) :
    (Value.expression c.queries).compile d =
      Phrase.write (Value.compile d) (.content c.first :: c.operands.flatMap Operand.phrases) := by
  refine (renders_compile d).write_linked Operand.link (fun o => ?_) (fun o => ?_) _ _
  · rw [Operand.link, Combination.split_keyword, Operand.phrases_eq]
    rfl
  · rw [Operand.link]
    exact ⟨' ', by simp, by decide⟩

theorem Compound.compile_eq (c : Compound) :
    c.toValue.compile d = Phrase.write (Value.compile d) c.phrases := by
  have hfits : Clause.Fits (c.clauses.map Clause.shape) :=
    .of_sublist c.shape_clauses (by decide) (by decide) (by decide)
  have hqueries := c.compile_queries d
  rw [← Phrase.write_content (Value.compile d)] at hqueries
  rw [toValue, toExpression, (renders_compile d).write_assemble hfits, clauses, phrases]
  simp only [List.flatMap_append]
  exact Phrase.write_append_congr d (Phrase.write_append_congr d (Phrase.write_append_congr d
    hqueries (Clause.write_orderBy d _)) (Clause.write_count d (by decide) ..))
    (Clause.write_count d (by decide) ..)

/-- Tables are written as their phrases by every renderer. -/
theorem FromClause.writtenAs (f : FromClause) : f.toValue.WrittenAs f.phrases := by
  refine ⟨fun h => ?_⟩
  refine h.write_linked Part.link (fun p => ?_) (fun p => ?_) _ _
  · rcases p with v | ⟨kind, v⟩ | c | names
    · have hsplit : Template.split ", ?" = [.text ", ", .positional] := by decide
      rw [Part.link, hsplit]
      rfl
    · have hsplit : Template.split (" " ++ kind.keyword ++ " ?") =
          [.text (" " ++ kind.keyword ++ " "), .positional] := by
        cases kind <;> decide
      rw [Part.link, hsplit, Part.phrases_joined]
      rfl
    · have hsplit : Template.split " ON ?" = [.text " ON ", .positional] := by decide
      rw [Part.link, hsplit]
      rfl
    · have hsplit : Template.split " USING (?)" = [.text " USING (", .positional, .text ")"] := by
        decide
      rw [Part.link, hsplit]
      rfl
  · rcases p with v | ⟨kind, v⟩ | c | names
    · exact ⟨',', by simp [Part.link], by decide⟩
    · exact ⟨' ', by simp [Part.link], by decide⟩
    · exact ⟨' ', by simp [Part.link], by decide⟩
    · exact ⟨' ', by simp [Part.link], by decide⟩

end

/-! ## Errors -/

namespace Phrase

variable {render : Value → Except RenderError String} {ps : List Phrase} {e : RenderError}

/-- The first content that fails does so with this error. -/
def FailsWith (render : Value → Except RenderError String) (ps : List Phrase)
    (e : RenderError) : Prop :=
  ∃ before v after, ps = before ++ .content v :: after ∧
    (∀ u, .content u ∈ before → ∃ s, render u = .ok s) ∧ render v = .error e

theorem failsWith_cons {p : Phrase} :
    FailsWith render (p :: ps) e ↔ (∃ v, p = .content v ∧ render v = .error e) ∨
      (∀ v, p = .content v → ∃ s, render v = .ok s) ∧ FailsWith render ps e := by
  constructor
  · rintro ⟨_ | ⟨q, before⟩, v, after, h, hbefore, hv⟩
    · obtain ⟨rfl, -⟩ := List.cons.inj h
      exact .inl ⟨v, rfl, hv⟩
    · obtain ⟨rfl, rfl⟩ := List.cons.inj h
      refine .inr ⟨fun u hu => hbefore u (hu ▸ List.mem_cons_self), before, v, after, rfl, ?_, hv⟩
      exact fun u hu => hbefore u (List.mem_cons_of_mem _ hu)
  · rintro (⟨v, rfl, hv⟩ | ⟨hp, before, v, after, rfl, hbefore, hv⟩)
    · exact ⟨[], v, ps, rfl, fun u hu => (nomatch hu), hv⟩
    · refine ⟨p :: before, v, after, rfl, fun u hu => ?_, hv⟩
      exact (List.mem_cons.mp hu).elim (fun h => hp u h.symm) (hbefore u)

theorem failsWith_iff_firstError? :
    FailsWith render ps e ↔ firstError? render (contents ps) = some e := by
  induction ps with
  | nil => exact ⟨fun ⟨_, _, _, h, _⟩ => absurd h.symm (by simp), fun h => (nomatch h)⟩
  | cons p ps ih =>
    rw [failsWith_cons, ih]
    cases p with
    | keyword s => simp
    | content v =>
      rw [contents_content, firstError?_cons]
      cases hv : render v <;> simp [hv]

/-- **Phrases fail with the error of their first content that fails**, and with no other. -/
theorem write_eq_error_iff : write render ps = .error e ↔ FailsWith render ps e := by
  rw [write_eq_error_iff_firstError?, failsWith_iff_firstError?]

end Phrase

/-! ## Statements that calls build -/

/-- **A value is compiled to phrases**: to their texts one after another, where the error of the
first content that fails is the only one. -/
structure Value.CompilesAs (d : Dialect) (v : Value) (ps : List Phrase) : Prop where
  text : v.compile d = Phrase.write (Value.compile d) ps
  error : ∀ e, v.compile d = .error e ↔ Phrase.FailsWith (Value.compile d) ps e

theorem Value.compilesAs_of_eq {d : Dialect} {v : Value} {ps : List Phrase}
    (h : v.compile d = Phrase.write (Value.compile d) ps) : v.CompilesAs d ps where
  text := h
  error e := by rw [h, Phrase.write_eq_error_iff]

/-- **Statements are compiled clause by clause**, whatever calls build them and in any dialect. -/
theorem compilesAs_built (d : Dialect) :
    (∀ calls, (Select.built calls).toValue.CompilesAs d (Select.asked calls).phrases) ∧
    (∀ table calls, (Insert.built table calls).toValue.CompilesAs d
      (Insert.asked table calls).phrases) ∧
    (∀ table calls, (Update.built table calls).toValue.CompilesAs d
      (Update.asked table calls).phrases) ∧
    (∀ table calls, (Delete.built table calls).toValue.CompilesAs d
      (Delete.asked table calls).phrases) ∧
    (∀ first calls, (Compound.built first calls).toValue.CompilesAs d
      (Compound.asked first calls).phrases) ∧
    (∀ first calls, (FromClause.built first calls).toValue.CompilesAs d
      (FromClause.asked first calls).phrases) ∧
    ∀ (v : Value) label, (v.aliased label).CompilesAs d
      [.content v, .keyword " AS ", .content (.identifier ⟨label, .none⟩)] := by
  refine ⟨fun calls => ?_, fun table calls => ?_, fun table calls => ?_, fun table calls => ?_,
    fun first calls => ?_, fun first calls => ?_, fun v label => ?_⟩
  · rw [Select.built_eq_asked]
    exact Value.compilesAs_of_eq (Select.compile_eq d _)
  · rw [Insert.built_eq_asked]
    exact Value.compilesAs_of_eq (Insert.compile_eq d _)
  · rw [Update.built_eq_asked]
    exact Value.compilesAs_of_eq (Update.compile_eq d _)
  · rw [Delete.built_eq_asked]
    exact Value.compilesAs_of_eq (Delete.compile_eq d _)
  · rw [Compound.built_eq_asked]
    exact Value.compilesAs_of_eq (Compound.compile_eq d _)
  · rw [FromClause.built_eq_asked]
    exact Value.compilesAs_of_eq ((FromClause.writtenAs _).render_eq (renders_compile d))
  · exact Value.compilesAs_of_eq (Value.compile_aliased d v label)

end PortableSql
