import PortableSql.Proofs.Render.Splicing
import PortableSql.Proofs.Statement.ClauseByClause

/-!
# The fields of inserted rows

An insertion of rows writes the table, the columns and the rows, and in each row one field for each
value that is not written as the empty text.

* **`Insert.text`**: the text of an insertion whose rows have given fields; `Insert.filled`: the
  fields that are not empty.
* **`Renders.render_insert`**: every renderer renders the table, and then the values row by row;
  **`Renders.render_insert_spliced`**: it writes a sequence in a row as its items.
* `Value.PreparedAfter`, `InTurn`: values that are prepared after others, and in turn.
* `Value.PreparedAfter.sql_eq_empty_iff`: both renderers write the same values as the empty text.
* **`Insert.render_rows`**: the fields of the rows, in both renderers.
-/

namespace PortableSql

/-! ## The text of an insertion -/

namespace Insert

/-- The insertion of rows under the given columns. -/
def ofRows (table : Value) (names : List String) (rows : List (List Value)) : Insert :=
  ⟨table, Value.columns names, .rows rows⟩

/-- The rows with the items of sequences in the place of these. -/
def spliced (rows : List (List Value)) : List (List Value) :=
  rows.map fun row => (Value.sequence row).spliced

/-- A list in parentheses. -/
def listText (items : List String) : String := "(" ++ Text.join ", " items ++ ")"

/-- The names of the columns, unless there are none. -/
def columnsText (d : Dialect) : List String → String
  | [] => ""
  | names => " " ++ listText (names.map fun name => d.columnText (.dotted name))

/-- The rows with their fields. -/
def valuesText : List (List String) → String
  | [] => " DEFAULT VALUES"
  | rows => " VALUES " ++ Text.join ", " (rows.map listText)

/-- **The text of an insertion** into a written table, of rows with the given fields. -/
def text (d : Dialect) (table : String) (names : List String) (rows : List (List String)) :
    String :=
  "INSERT INTO " ++ table ++ columnsText d names ++ valuesText rows

/-- The rows without the fields that are empty. -/
def filled (rows : List (List String)) : List (List String) :=
  rows.map fun fields => fields.filter (· ≠ "")

end Insert

/-! ## Renderers -/

section

variable {m : Type → Type} [Monad m] [LawfulMonad m]

theorem inOrder_map_map {α β : Type} (f : α → m β) (g : β → String) (as : List α) :
    inOrder (as.map fun a => do return g (← f a)) = (do return (← as.mapM f).map g) := by
  induction as with
  | nil => simp [inOrder]
  | cons a as ih =>
    simp only [List.map_cons, inOrder, ih, List.mapM_cons, bind_assoc, pure_bind]

variable [MonadExceptOf RenderError m] {d : Dialect} {S : Scribe m} {render : Value → m String}

/-- A row has the fields that are not empty. -/
theorem Renders.write_rowPhrases (h : Renders d S render) (row : List Value) :
    Phrase.write render (Insert.rowPhrases row) =
      (do return Insert.listText ((← row.mapM render).filter (· ≠ ""))) := by
  simp only [Insert.rowPhrases, Phrase.write, h.sequence, inOrder_map, bind_assoc, pure_bind,
    String.append_empty, Text.joinFilled, Insert.listText, String.append_assoc]

theorem Renders.render_columns (h : Renders d S render) (names : List String) :
    render (.sequence (Value.columns names)) =
      pure (Text.join ", " (names.map fun name => d.columnText (.dotted name))) :=
  h.render_texts (fun name _ => h.column (.dotted name)) fun _ _ => d.columnText_ne_empty _

theorem Renders.write_columnClauses (h : Renders d S render) (names : List String) :
    Phrase.write render ((Insert.columnClauses (Value.columns names)).flatMap Clause.phrases) =
      pure (Insert.columnsText d names) := by
  cases names with
  | nil => rfl
  | cons name names =>
    change Phrase.write render [.keyword (" " ++ "("),
      .content (.sequence (Value.columns (name :: names))), .keyword ")"] = _
    simp only [Phrase.write, h.render_columns, pure_bind, String.append_empty,
      Insert.columnsText, Insert.listText, String.append_assoc]

omit [MonadExceptOf RenderError m] in
theorem Insert.write_rows (render : Value → m String) (row : List Value)
    (rows : List (List Value)) :
    Phrase.write render (Source.rows (row :: rows)).clause.phrases =
      (do return " VALUES " ++ (← render (.sequence ((row :: rows).map rowValue)))) := by
  change Phrase.write render [.keyword " VALUES ", .content _] = _
  rw [Phrase.write, Phrase.write_content]

theorem Renders.write_values (h : Renders d S render) (rows : List (List Value)) :
    Phrase.write render (Insert.Source.rows rows).clause.phrases = (do
      let fields ← rows.mapM fun row => row.mapM render
      return Insert.valuesText (Insert.filled fields)) := by
  cases rows with
  | nil =>
    simp [Insert.Source.clause, Clause.phrases, Phrase.write, Insert.filled, Insert.valuesText]
  | cons row rows =>
    have hrow : ∀ row, render (Insert.rowValue row) = Phrase.write render (Insert.rowPhrases row) :=
      fun row => (Insert.writtenAs_rowValue row).render_eq h
    have hrows := h.write_sequence hrow (fun row => ⟨"(", by decide, List.mem_cons_self⟩)
      (row :: rows)
    have hfields : ((row :: rows).map Insert.rowPhrases).map (Phrase.write render) =
        (row :: rows).map fun row => do
          return Insert.listText ((← row.mapM render).filter (· ≠ "")) := by
      rw [List.map_map]
      exact List.map_congr_left fun row _ => h.write_rowPhrases row
    rw [Phrase.write_commas, hfields, inOrder_map_map] at hrows
    rw [Insert.write_rows, hrows, List.mapM_cons]
    simp only [bind_assoc, pure_bind, Insert.filled, Insert.valuesText, List.map_cons,
      List.map_map]
    rfl

omit [MonadExceptOf RenderError m] in
theorem Insert.write_table (render : Value → m String) (table : Value) :
    Phrase.write render ([Clause.text "INSERT INTO", .slot " " "table" table].flatMap
      Clause.phrases) = (do return "INSERT INTO " ++ (← render table)) := by
  change Phrase.write render [.keyword "INSERT INTO", .keyword " ", .content table] = _
  simp only [Phrase.write, bind_assoc, pure_bind, String.append_empty]
  rfl

/-- An insertion is written up to its columns, and then its rows. -/
theorem Renders.write_insert (h : Renders d S render) (i : Insert) :
    render i.toValue = (do
      let s ← Phrase.write render
        (([Clause.text "INSERT INTO", .slot " " "table" i.table] ++
          Insert.columnClauses i.columns).flatMap Clause.phrases)
      return s ++ (← Phrase.write render i.source.clause.phrases)) := by
  rw [Insert.toValue, Insert.toExpression, h.write_assemble i.fits_clauses, Insert.clauses,
    List.flatMap_append, Phrase.write_append, List.flatMap_singleton]

/-- **An insertion of rows renders the table, and then the values row by row**, in order. -/
theorem Renders.render_insert (h : Renders d S render) (table : Value) (names : List String)
    (rows : List (List Value)) :
    render (Insert.ofRows table names rows).toValue = (do
      let t ← render table
      let fields ← rows.mapM fun row => row.mapM render
      return Insert.text d t names (Insert.filled fields)) := by
  rw [h.write_insert, List.flatMap_append, Phrase.write_append, Insert.write_table]
  rw [Insert.ofRows, h.write_columnClauses, h.write_values]
  simp only [bind_assoc, pure_bind, Insert.text]

/-- A row is written as the one in which the items of sequences stand in their place. -/
theorem Renders.render_rowValue_spliced (h : Renders d S render) (row : List Value) :
    render (Insert.rowValue (Value.sequence row).spliced) = render (Insert.rowValue row) := by
  rw [(Insert.writtenAs_rowValue _).render_eq h, (Insert.writtenAs_rowValue row).render_eq h]
  simp only [Insert.rowPhrases, Phrase.write, h.render_sequence_of_spliced]

/-- **Sequences in rows are spliced.** -/
theorem Renders.render_insert_spliced (h : Renders d S render) (table : Value)
    (names : List String) (rows : List (List Value)) :
    render (Insert.ofRows table names (Insert.spliced rows)).toValue =
      render (Insert.ofRows table names rows).toValue := by
  rw [h.write_insert, h.write_insert]
  cases rows with
  | nil => rfl
  | cons row rows =>
    have hvalues : render (.sequence (((Value.sequence row).spliced ::
        Insert.spliced rows).map Insert.rowValue)) =
          render (.sequence ((row :: rows).map Insert.rowValue)) := by
      simp only [h.sequence, Insert.spliced, List.map_cons, List.map_map, Function.comp_def,
        h.render_rowValue_spliced]
    have hspliced : Insert.spliced (row :: rows) =
      (Value.sequence row).spliced :: Insert.spliced rows := rfl
    rw [hspliced, Insert.ofRows, Insert.ofRows, Insert.write_rows, Insert.write_rows, hvalues]

end

theorem mapM_eq_ok_iff {ε α β : Type} {f : α → Except ε β} {as : List α} {bs : List β} :
    as.mapM f = .ok bs ↔ List.Forall₂ (fun a b => f a = .ok b) as bs :=
  eq_ok_iff_forall₂_of_cons (g := fun as => as.mapM f) rfl fun _ _ => List.mapM_cons

/-! ## Values prepared in turn -/

/-- The value is prepared as `p` when the literals `bound` have been bound before. -/
def Value.PreparedAfter (d : Dialect) (bound : List Literal) (v : Value) (p : Prepared) : Prop :=
  (v.binding d).run bound.toArray = .ok (p.sql, (bound ++ p.binds).toArray)

theorem Value.preparedAfter_iff {d : Dialect} {bound : List Literal} {v : Value} {p : Prepared} :
    v.PreparedAfter d bound p ↔ (v.walk d).stop = none ∧
      p = ⟨(v.walk d).draft.write (d.placeholders bound.length (v.walk d).draft.literals.length),
        (v.walk d).draft.literals⟩ := by
  rw [PreparedAfter, (renders_binding d).eq_perform, Walk.perform, StateT.run_bind,
    perform_binding]
  cases hs : (v.walk d).stop with
  | some e =>
    constructor
    · intro h
      cases h
    · rintro ⟨h, -⟩
      cases h
  | none =>
    obtain ⟨sql, binds⟩ := p
    change Except.ok _ = Except.ok _ ↔ _
    simp [eq_comm]

theorem Value.preparedAfter_nil {d : Dialect} {v : Value} {p : Prepared} :
    v.PreparedAfter d [] p ↔ v.prepare d = .ok p := by
  rw [preparedAfter_iff, prepare_eq_ok_iff]
  rfl

/-- What is bound before changes no literal of a value, and nothing but its placeholders. -/
theorem Value.exists_preparedAfter {d : Dialect} {v : Value} {p : Prepared}
    (h : v.prepare d = .ok p) (bound : List Literal) :
    ∃ sql, v.PreparedAfter d bound ⟨sql, p.binds⟩ := by
  obtain ⟨hs, rfl⟩ := prepare_eq_ok_iff.mp h
  exact ⟨_, preparedAfter_iff.mpr ⟨hs, rfl⟩⟩

theorem Draft.write_eq_empty_iff {t : Draft} {marks : List String}
    (hlength : marks.length = t.literals.length) (hne : ∀ mark ∈ marks, mark ≠ "") :
    t.write marks = "" ↔ t.isBlank = true := by
  induction t generalizing marks with
  | nil => simp [write, isBlank]
  | text s t ih => simp [write, isBlank, String.append_eq_empty_iff, ih hlength hne]
  | literal l t ih =>
    obtain ⟨mark, marks, rfl⟩ := List.exists_cons_of_length_eq_add_one hlength
    have hmark := hne mark List.mem_cons_self
    simp [write, isBlank, String.append_eq_empty_iff, hmark]

theorem Dialect.ne_empty_of_mem_quoteEach {d : Dialect} {ls : List Literal} {marks : List String}
    (h : List.Forall₂ (fun l mark => d.quoteLiteral l = .ok mark) ls marks) :
    ∀ mark ∈ marks, mark ≠ "" := by
  induction h with
  | nil => exact fun _ h => nomatch h
  | cons hmark _ ih => exact List.forall_mem_cons.mpr ⟨quoteLiteral_ne_empty hmark, ih⟩

/-- **Both renderers write the same values as the empty text.** -/
theorem Value.PreparedAfter.sql_eq_empty_iff {d : Dialect} {bound : List Literal} {v : Value}
    {p : Prepared} (h : v.PreparedAfter d bound p) {text : String} (hc : v.compile d = .ok text) :
    p.sql = "" ↔ text = "" := by
  obtain ⟨-, rfl⟩ := preparedAfter_iff.mp h
  obtain ⟨-, marks, hmarks, rfl⟩ := compile_eq_ok_iff.mp hc
  have hquoted := Dialect.quoteEach_eq_ok_iff.mp hmarks
  have hcompiled := Draft.write_eq_empty_iff hquoted.length_eq.symm
    (Dialect.ne_empty_of_mem_quoteEach hquoted)
  rw [hcompiled]
  refine Draft.write_eq_empty_iff ?_ ?_
  · rw [Dialect.placeholders, List.length_map, List.length_range']
  · exact List.forall_mem_map.mpr fun position _ => d.placeholder_ne_empty position

/-- **Each of the parts after those before it**: `R bound a b` relates a part to what it becomes
when the literals `bound` have been bound, and `binds b` are those that it binds itself. -/
inductive InTurn {α β : Type} (R : List Literal → α → β → Prop) (binds : β → List Literal) :
    List Literal → List α → List β → Prop
  | nil (bound : List Literal) : InTurn R binds bound [] []
  | cons {bound : List Literal} {a : α} {b : β} {as : List α} {bs : List β} (ha : R bound a b)
    (has : InTurn R binds (bound ++ binds b) as bs) : InTurn R binds bound (a :: as) (b :: bs)

theorem exists_inTurn {α β : Type} {R : List Literal → α → β → Prop} {binds : β → List Literal}
    {as : List α} (h : ∀ a ∈ as, ∀ bound, ∃ b, R bound a b) (bound : List Literal) :
    ∃ bs, InTurn R binds bound as bs := by
  induction as generalizing bound with
  | nil => exact ⟨[], .nil bound⟩
  | cons a as ih =>
    obtain ⟨ha, has⟩ := List.forall_mem_cons.mp h
    obtain ⟨b, hb⟩ := ha bound
    obtain ⟨bs, hbs⟩ := ih has (bound ++ binds b)
    exact ⟨b :: bs, .cons hb hbs⟩

/-- **Actions in order bind what they bind in turn.** -/
theorem InTurn.run_mapM {α β γ : Type} {R : List Literal → α → β → Prop}
    {binds : β → List Literal} {f : α → Binding γ} {g : β → γ}
    (hR : ∀ {bound a b}, R bound a b →
      (f a).run bound.toArray = .ok (g b, (bound ++ binds b).toArray))
    {bound : List Literal} {as : List α} {bs : List β} (h : InTurn R binds bound as bs) :
    (as.mapM f).run bound.toArray = .ok (bs.map g, (bound ++ bs.flatMap binds).toArray) := by
  induction h with
  | nil bound =>
    rw [List.flatMap_nil, List.append_nil]
    rfl
  | @cons bound a b as bs ha _ ih =>
    rw [List.mapM_cons, StateT.run_bind, hR ha]
    change (do let bs ← as.mapM f; pure (g b :: bs) : Binding (List γ)).run _ = _
    rw [StateT.run_bind, ih, List.flatMap_cons, ← List.append_assoc]
    rfl

/-! ## Rows of fields -/

namespace Insert

theorem filled_eq_self {rows : List (List String)} (h : ∀ fields ∈ rows, "" ∉ fields) :
    filled rows = rows := by
  have hrow : ∀ fields ∈ rows, (fields.filter (· ≠ "")) = fields := fun fields hfields =>
    List.filter_eq_self.mpr fun s hs => decide_eq_true fun heq => h fields hfields (heq ▸ hs)
  rw [filled, List.map_congr_left hrow, List.map_id']

/-- The literals of prepared rows, in order. -/
def rowBinds (fields : List Prepared) : List Literal := fields.flatMap Prepared.binds

section

variable {d : Dialect} {table : Value} {rows : List (List Value)}

theorem compile_of_forall₂ (names : List String) {t : String} {fields : List (List String)}
    (ht : table.compile d = .ok t)
    (h : List.Forall₂ (List.Forall₂ fun v s => v.compile d = .ok s) rows fields) :
    (ofRows table names rows).toValue.compile d =
      .ok (text d t names (filled fields)) := by
  have hrows : (rows.mapM fun row => row.mapM (Value.compile d)) = .ok fields := by
    refine mapM_eq_ok_iff.mpr ?_
    simpa only [mapM_eq_ok_iff] using h
  rw [(renders_compile d).render_insert, ht, hrows]
  rfl

theorem prepare_of_inTurn (names : List String) {p : Prepared} {fields : List (List Prepared)}
    (ht : table.prepare d = .ok p)
    (h : InTurn (InTurn (Value.PreparedAfter d) Prepared.binds) rowBinds p.binds rows fields) :
    (ofRows table names rows).toValue.prepare d =
      .ok ⟨text d p.sql names (filled (fields.map (·.map Prepared.sql))),
        p.binds ++ fields.flatMap rowBinds⟩ := by
  have htable : (table.binding d).run #[] = .ok (p.sql, p.binds.toArray) :=
    Value.preparedAfter_nil.mpr ht
  have hrows := h.run_mapM (f := fun row => row.mapM (Value.binding d))
    (g := fun row => row.map Prepared.sql) fun hrow => hrow.run_mapM fun hv => hv
  refine Value.preparedAfter_nil.mp ?_
  rw [Value.PreparedAfter, (renders_binding d).render_insert, StateT.run_bind]
  rw [htable]
  change StateT.run (do
    return text d p.sql names (filled (← rows.mapM fun row => row.mapM (Value.binding d))))
      p.binds.toArray = _
  rw [StateT.run_bind, hrows]
  rfl

end

/-- Rows that are spliced hold no sequences. -/
theorem ne_sequence_of_mem_spliced {rows : List (List Value)} {row : List Value}
    (h : row ∈ spliced rows) {v : Value} (hv : v ∈ row) (items : List Value) :
    v ≠ .sequence items := by
  obtain ⟨row, -, rfl⟩ := List.mem_map.mp h
  exact Value.ne_sequence_of_mem_spliced hv items

/-- **Inserted rows have a field for each value that is not written as the empty text**, in the
order of the values. A row with sequences is written as the one with their items in their place. -/
theorem render_rows (d : Dialect) (table : Value) (names : List String)
    (rows : List (List Value)) :
    let insertion : Value := (ofRows table names rows).toValue
    ((∃ t, table.compile d = .ok t) → (∀ row ∈ rows, ∀ v ∈ row, ∃ s, v.compile d = .ok s) →
      ∃ t fields, table.compile d = .ok t ∧
        List.Forall₂ (List.Forall₂ fun v s => v.compile d = .ok s) rows fields ∧
        insertion.compile d = .ok (text d t names (filled fields)) ∧
        ((∀ row ∈ fields, "" ∉ row) → insertion.compile d = .ok (text d t names fields))) ∧
    ((∃ p, table.prepare d = .ok p) → (∀ row ∈ rows, ∀ v ∈ row, ∃ p, v.prepare d = .ok p) →
      ∃ p fields, table.prepare d = .ok p ∧
        InTurn (InTurn (Value.PreparedAfter d) Prepared.binds) rowBinds p.binds rows fields ∧
        insertion.prepare d = .ok ⟨text d p.sql names (filled (fields.map (·.map Prepared.sql))),
          p.binds ++ fields.flatMap rowBinds⟩ ∧
        ((∀ row ∈ fields, ∀ p ∈ row, p.sql ≠ "") →
          insertion.prepare d = .ok ⟨text d p.sql names (fields.map (·.map Prepared.sql)),
            p.binds ++ fields.flatMap rowBinds⟩)) ∧
    (∀ (v : Value) bound p, v.PreparedAfter d bound p →
      (∃ sql, v.prepare d = .ok ⟨sql, p.binds⟩) ∧
        ∀ s, v.compile d = .ok s → (p.sql = "" ↔ s = "")) ∧
    (∀ row ∈ spliced rows, ∀ v ∈ row, ∀ items, v ≠ .sequence items) ∧
      (ofRows table names (spliced rows)).toValue.compile d = insertion.compile d ∧
      (ofRows table names (spliced rows)).toValue.prepare d = insertion.prepare d := by
  refine ⟨fun ⟨t, ht⟩ hrows => ?_, fun ⟨p, hp⟩ hrows => ?_, fun v bound p hv => ⟨?_, ?_⟩,
    fun row hrow v hv => ne_sequence_of_mem_spliced hrow hv, ?_, ?_⟩
  · obtain ⟨fields, hfields⟩ := exists_forall₂ fun row hrow => exists_forall₂ (hrows row hrow)
    have htext := compile_of_forall₂ names ht hfields
    exact ⟨t, fields, ht, hfields, htext, fun hne => by rw [htext, filled_eq_self hne]⟩
  · have hvalue : ∀ row ∈ rows, ∀ v ∈ row, ∀ bound, ∃ p, v.PreparedAfter d bound p :=
      fun row hrow v hv bound => by
        obtain ⟨p, hp⟩ := hrows row hrow v hv
        obtain ⟨sql, hsql⟩ := Value.exists_preparedAfter hp bound
        exact ⟨_, hsql⟩
    obtain ⟨fields, hfields⟩ :
        ∃ fields, InTurn (InTurn (Value.PreparedAfter d) Prepared.binds) rowBinds p.binds rows
          fields :=
      exists_inTurn (fun row hrow => exists_inTurn (hvalue row hrow)) p.binds
    have htext := prepare_of_inTurn names hp hfields
    refine ⟨p, fields, hp, hfields, htext, fun hne => ?_⟩
    rw [htext, filled_eq_self]
    refine List.forall_mem_map.mpr fun row hrow hmem => ?_
    obtain ⟨q, hq, hsql⟩ := List.mem_map.mp hmem
    exact hne row hrow q hq hsql
  · obtain ⟨hs, rfl⟩ := Value.preparedAfter_iff.mp hv
    exact ⟨_, Value.prepare_eq_ok_iff.mpr ⟨hs, rfl⟩⟩
  · exact fun s => hv.sql_eq_empty_iff
  · exact (renders_compile d).render_insert_spliced table names rows
  · rw [Value.prepare, Value.prepare, (renders_binding d).render_insert_spliced]

/-- A sequence is one field, and the placeholders of later rows go on counting. -/
theorem render_rows_numbered :
    let d : Dialect := .builtin .postgres
    let table : Value := .table ⟨"t", .none⟩
    let rows : List (List Value) := [[.literal (.int 1), .sequence [.text "x", .literal .null]],
      [.expression (.raw "now()"), .literal (.int 2)]]
    let insertion : Value := (ofRows table ["a", "b"] rows).toValue
    (∃ p fields, table.prepare d = .ok p ∧
        InTurn (InTurn (Value.PreparedAfter d) Prepared.binds) rowBinds p.binds rows fields ∧
        insertion.prepare d =
          .ok ⟨text d p.sql ["a", "b"] (filled (fields.map (·.map Prepared.sql))),
            p.binds ++ fields.flatMap rowBinds⟩) ∧
      InTurn (InTurn (Value.PreparedAfter d) Prepared.binds) rowBinds [] rows
        [[⟨"$1", [.int 1]⟩, ⟨"$2, $3", [.text "x", .null]⟩],
          [⟨"now()", []⟩, ⟨"$4", [.int 2]⟩]] := by
  have hrows : ∀ row ∈ ([[.literal (.int 1), .sequence [.text "x", .literal .null]],
      [.expression (.raw "now()"), .literal (.int 2)]] : List (List Value)),
      ∀ v ∈ row, ∃ p, v.prepare (.builtin .postgres) = .ok p :=
    List.forall_mem_cons.mpr ⟨List.forall_mem_cons.mpr ⟨⟨_, rfl⟩,
      List.forall_mem_singleton.mpr ⟨_, rfl⟩⟩, List.forall_mem_singleton.mpr
        (List.forall_mem_cons.mpr ⟨⟨_, rfl⟩, List.forall_mem_singleton.mpr ⟨_, rfl⟩⟩)⟩
  refine ⟨?_, ?_⟩
  · obtain ⟨p, fields, hp, hturn, htext, -⟩ :=
      (render_rows (.builtin .postgres) (.table ⟨"t", .none⟩) ["a", "b"] _).2.1 ⟨_, rfl⟩ hrows
    exact ⟨p, fields, hp, hturn, htext⟩
  · exact .cons (.cons rfl (.cons rfl (.nil _))) (.cons (.cons rfl (.cons rfl (.nil _))) (.nil _))

/-- **An empty sequence leaves its field out**, so that later ones stand under other columns, and a
longer one takes several. -/
theorem rows_drop_empty_field :
    let d : Dialect := .builtin .generic
    let table : Value := .table (.dotted "t")
    let int (n : Int64) : Value := .literal (.int n)
    let row : List Value := [int 1, .sequence [], int 2]
    let fields := ["1", "", "2"]
    let insertion : Value := (ofRows table ["a", "b", "c"] [row]).toValue
    List.Forall₂ (fun v s => v.compile d = .ok s) row fields ∧
      insertion.compile d = .ok "INSERT INTO \"t\" (\"a\", \"b\", \"c\") VALUES (1, 2)" ∧
      insertion.compile d ≠ .ok (text d "\"t\"" ["a", "b", "c"] [fields]) ∧
      (ofRows table ["a", "b"] [[int 1, .sequence [int 2, int 3]]]).toValue.compile d =
        (ofRows table ["a", "b"] [[int 1, int 2, int 3]]).toValue.compile d := by
  intro d table int row fields insertion
  have hfields : List.Forall₂ (fun v s => v.compile d = .ok s) row fields :=
    .cons rfl (.cons rfl (.cons rfl .nil))
  have htext : insertion.compile d =
      .ok "INSERT INTO \"t\" (\"a\", \"b\", \"c\") VALUES (1, 2)" :=
    (compile_of_forall₂ ["a", "b", "c"] rfl (.cons hfields .nil)).trans
      (congrArg Except.ok (by decide))
  refine ⟨hfields, htext, ?_, ?_⟩
  · rw [htext]
    intro h
    exact absurd (Except.ok.inj h) (by decide)
  · exact ((renders_compile d).render_insert_spliced table ["a", "b"]
      [[int 1, .sequence [int 2, int 3]]]).symm

end Insert

end PortableSql
