import PortableSql.Proofs.Statement.ClauseByClause

/-!
# Places for conditions

Conditions stand in the `WHERE` of a statement, in the `HAVING` of a query, or in the `ON` of a
join. The rest of the statement is written around them.

* **`Place`**, `Place.statement`: a statement without its conditions at one place, and with them.
* `Place.clauses_eq`: the clauses around the place, `Place.before` and `Place.after`.
* **`Place.writtenAs`**: conditions are written after their keyword, between those clauses.
* `Place.failsAs`, `FromClause.failsAs_on`: the errors of a statement around its conditions.
-/

namespace PortableSql

/-- **A statement with a place for conditions**: the filter of a deletion, an update or a query, or
the filter of the groups of a query. -/
inductive Place where
  | delete (q : Delete)
  | update (u : Update)
  | rows (q : Select)
  | groups (q : Select)

namespace Place

/-- The statement with these conditions at its place, or without any. -/
def statement (c : Option Conditions) : Place → Value
  | delete q => { q with filter := c }.toValue
  | update u => { u with filter := c }.toValue
  | rows q => { q with filter := c }.toValue
  | groups q => { q with having := c }.toValue

/-- The keyword of the place, between blanks. -/
def keyword : Place → String
  | delete _ | update _ | rows _ => " WHERE "
  | groups _ => " HAVING "

/-- The clauses before the place. -/
def before : Place → List Clause
  | delete q => [.text "DELETE FROM", .slot " " "table" q.table]
  | update u => [.text "UPDATE", .slot " " "table" u.table] ++
      Clause.list " SET " "set" (u.assignments.map Update.Assignment.toValue)
  | rows q => [.text "SELECT "] ++ (if q.distinct then [.text "DISTINCT "] else []) ++
      [Select.columnClause q.columns] ++ Clause.optional " FROM " "table" q.source
  | groups q => [.text "SELECT "] ++ (if q.distinct then [.text "DISTINCT "] else []) ++
      [Select.columnClause q.columns] ++ Clause.optional " FROM " "table" q.source ++
      Clause.filter q.filter ++ Clause.list " GROUP BY " "groupby" q.groupBy

/-- The clauses after the place. -/
def after : Place → List Clause
  | delete q => Clause.orderBy q.orderBy ++ Clause.limit q.limit
  | update u => Clause.orderBy u.orderBy ++ Clause.limit u.limit
  | rows q => Clause.list " GROUP BY " "groupby" q.groupBy ++
      Clause.conditions " HAVING " "having" q.having ++ Clause.orderBy q.orderBy ++
      Clause.limit q.limit ++ Clause.offset q.offset
  | groups q => Clause.orderBy q.orderBy ++ Clause.limit q.limit ++ Clause.offset q.offset

/-- The slot of the place. -/
def slot : Place → String
  | delete _ | update _ | rows _ => "where"
  | groups _ => "having"

/-- The clauses of the statement. -/
def clauses (c : Option Conditions) : Place → List Clause
  | delete q => { q with filter := c }.clauses
  | update u => { u with filter := c }.clauses
  | rows q => { q with filter := c }.clauses
  | groups q => { q with having := c }.clauses

theorem statement_eq (c : Option Conditions) (p : Place) :
    p.statement c = .expression (Clause.assemble (p.clauses c)) := by
  cases p <;> rfl

theorem fits_clauses (c : Option Conditions) (p : Place) :
    Clause.Fits ((p.clauses c).map Clause.shape) := by
  cases p with
  | delete q => exact Delete.fits_clauses _
  | update u => exact Update.fits_clauses _
  | rows q | groups q => exact Select.fits_clauses _

/-- Around the slot of the place the clauses are the same for all conditions. -/
theorem clauses_eq (c : Option Conditions) (p : Place) :
    p.clauses c = p.before ++ Clause.conditions p.keyword p.slot c ++ p.after := by
  cases p <;>
    simp only [clauses, before, after, keyword, slot, Delete.clauses, Update.clauses,
      Select.clauses, Clause.filter, List.append_assoc]

/-- **Conditions are written after their keyword**, between the other clauses. -/
theorem writtenAs (c : Option Conditions) (p : Place) :
    (p.statement c).WrittenAs (p.before.flatMap Clause.phrases ++
      Phrase.conditions p.keyword c ++ p.after.flatMap Clause.phrases) where
  render_eq h := by
    have hkeyword : p.keyword ≠ "" := by cases p <;> simp [keyword]
    rw [statement_eq, h.write_assemble (p.fits_clauses c), clauses_eq, List.flatMap_append,
      List.flatMap_append, Clause.phrases_conditions hkeyword]

/-- Conditions that are not empty are written, and only their contents are added to those of the
other clauses. -/
theorem writtenAs_of_not_isEmpty {c : Conditions} (h : c.isEmpty = false) (p : Place) :
    (p.statement (some c)).WrittenAs (p.before.flatMap Clause.phrases ++
      [.keyword p.keyword] ++ .content c.toValue :: p.after.flatMap Clause.phrases) := by
  have hw := p.writtenAs (some c)
  rw [Phrase.conditions_some, h, if_neg Bool.false_ne_true] at hw
  simpa only [List.append_assoc, List.cons_append, List.nil_append] using hw

end Place

/-! ## Errors around conditions -/

/-- The contents of clauses. -/
def Clause.contents (clauses : List Clause) : List Value :=
  Phrase.contents (clauses.flatMap phrases)

section

variable {c : Conditions} {ps : List Phrase}

/-- **A statement fails as the contents of its conditions** and those of the clauses around. -/
theorem Place.failsAs (h : c.toValue.WrittenAs ps)
    (hempty : c.isEmpty = true → Phrase.contents ps = []) (p : Place) :
    (p.statement (some c)).FailsAs
      (Clause.contents p.before ++ Phrase.contents ps ++ Clause.contents p.after) := by
  cases hc : c.isEmpty with
  | true =>
    -- empty conditions are left out, and have no contents either
    have hw := (p.writtenAs (some c)).failsAs
    rw [Phrase.conditions_some, if_pos hc, List.append_nil, Phrase.contents_append] at hw
    rw [hempty hc, List.append_nil]
    exact hw
  | false =>
    have hw := ((p.writtenAs_of_not_isEmpty hc).expand h).failsAs
    rw [Phrase.contents_append, Phrase.contents_append, Phrase.contents_append,
      Phrase.contents_keyword, Phrase.contents_nil, List.append_nil] at hw
    exact hw

/-- **Tables fail as the contents of the conditions of a join** and the tables around. -/
theorem FromClause.failsAs_on (h : c.toValue.WrittenAs ps) (first : Value)
    (before after : List FromClause.Part) :
    (FromClause.mk first (before ++ .on c :: after)).toValue.FailsAs
      (first :: before.map (·.link.2) ++ Phrase.contents ps ++ after.map (·.link.2)) := by
  have hcontents (parts : List Part) :
      Phrase.contents (parts.flatMap Part.phrases) = parts.map (·.link.2) := by
    induction parts with
    | nil => rfl
    | cons part parts ih =>
      rw [List.flatMap_cons, Phrase.contents_append, ih]
      rcases part with v | ⟨kind, v⟩ | c | names
      case joined => cases kind <;> rfl
      all_goals rfl
  have hphrases : phrases ⟨first, before ++ .on c :: after⟩ =
      .content first :: before.flatMap Part.phrases ++ [.keyword " ON "] ++
        .content c.toValue :: after.flatMap Part.phrases := by
    simp [phrases, Part.phrases]
  have hw := writtenAs ⟨first, before ++ .on c :: after⟩
  rw [hphrases] at hw
  have hf := (hw.expand h).failsAs
  rwa [Phrase.contents_append, Phrase.contents_append, Phrase.contents_append, hcontents,
    Phrase.contents_content, hcontents, Phrase.contents_keyword, Phrase.contents_nil,
    List.append_nil] at hf

end

end PortableSql
