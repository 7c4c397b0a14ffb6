import PortableSql.Proofs.Compound.Tree
import PortableSql.Proofs.Conditions.ColumnTest

/-!
# Queries of tables

Queries whose names and texts may hold anything, keywords and quotes among it.

* **`QueryCore.table`**: all columns of a table.
* `QueryFilter`, **`QueryFilter.test`**: a filter by the test of a column.
* **`QueryCore.filtered`**: some columns of the rows of a table that pass a filter.
* `QueryTail.unordered`, **`QueryTail.byColumn`**: limits, and limits after the order of a column.
-/

namespace PortableSql

theorem Engine.mark?_nameNode (e : Engine) (name : String) : (e.nameNode name).mark? = none := rfl

theorem Engine.readsAs_quote (e : Engine) {v : Value} {name : String}
    (h : v.compile (.builtin e) = .ok ((Dialect.builtin e).quote name)) :
    v.ReadsAs (.builtin e) [e.nameNode name] :=
  ⟨_, h, e.nodes_quote name⟩

theorem Engine.readsAs_table (e : Engine) (name : String) :
    (Value.table ⟨name, .none⟩).ReadsAs (.builtin e) [e.nameNode name] := by
  refine e.readsAs_quote ?_
  rw [Value.compile, Dialect.tableText, Dialect.quoteTable]
  exact congrArg Except.ok (String.empty_append.trans (congrArg _ String.empty_append))

/-- What is written for the table that a query selects from. -/
theorem Engine.follows_source (e : Engine) (name : String) :
    Phrase.Follows (.builtin e) [.keyword " FROM ", .content (.table ⟨name, .none⟩)]
      [.word "FROM", e.nameNode name] := by
  have hfrom : ∀ w ∈ ["FROM"], IsWord w := by decide
  exact (Phrase.readsAs_content (e.readsAs_table name)).after e.separates hfrom

/-! ## Filters -/

/-- **The filter of a query**, whose text is read as nodes that start no segment. -/
structure QueryFilter (d : Dialect) where
  conditions : Conditions
  filled : conditions.isEmpty = false
  nodes : List Node
  reads : conditions.toValue.ReadsAs d nodes
  unmarked : Unmarked nodes

theorem Conditions.ColumnTest.unmarked_nodes (e : Engine) (name : String) {t : ColumnTest}
    (ht : t.Fits) : Unmarked (t.nodes e name) := by
  have hoperators : ∀ operator ∈ comparisons ++ memberships ++ ranges,
      ∀ t ∈ operatorTokens operator, (Node.token t).mark? = none := by
    decide
  have hand : (Node.word "AND").mark? = none := by decide
  have htext (s : String) : (Engine.textNode s).mark? = none := rfl
  have hgroup (ns : List Node) : (Node.group ns).mark? = none := rfl
  have hright : Unmarked t.rightNodes := by
    cases t <;> simp [Unmarked, rightNodes, htext, hgroup, hand]
  intro n hn
  rw [nodes, List.mem_cons, List.mem_append] at hn
  rcases hn with rfl | hn | hn
  · exact e.mark?_nameNode name
  · obtain ⟨token, htoken, rfl⟩ := List.mem_map.mp hn
    exact hoperators t.operator (mem_operators ht) token htoken
  · exact hright n hn

/-- **A filter by the test of a column.** -/
def QueryFilter.test (e : Engine) (name : String) (t : Conditions.ColumnTest) (hname : name ≠ "*")
    (ht : t.Fits) : QueryFilter (.builtin e) where
  conditions := t.chain name
  filled := t.isEmpty_chain name
  nodes := t.nodes e name
  reads := ⟨t.text e name, t.compile_chain e hname ht, t.nodes_text e ht⟩
  unmarked := t.unmarked_nodes e name ht

/-! ## Queries -/

namespace QueryCore

/-- The nodes of a query for all columns of a table. -/
def tableNodes (e : Engine) (name : String) : List Node :=
  [.word "SELECT", .token (.symbol '*')] ++ [.word "FROM", e.nameNode name]

theorem readsAs_table (e : Engine) (name : String) :
    ({ source := some (.table ⟨name, .none⟩) } : Select).toValue.ReadsAs (.builtin e)
      (tableNodes e name) := by
  have hcolumns : Phrase.ReadsAs (.builtin e) [.keyword "SELECT ", .keyword "*"]
      [.word "SELECT", .token (.symbol '*')] := by
    refine ⟨"SELECT *", by rfl, ?_⟩
    rw [Dialect.nodes]
    cases e <;> rfl
  obtain ⟨s, hs, hns⟩ := hcolumns.append e.separates (e.follows_source name)
  refine ⟨s, ?_, hns⟩
  rw [Select.compile_eq]
  exact hs

/-- **The query for all columns of a table.** -/
def table (e : Engine) (name : String) : QueryCore (.builtin e) where
  query := { source := some (.table ⟨name, .none⟩) }
  bare := ⟨rfl, rfl, rfl⟩
  nodes := tableNodes e name
  reads := readsAs_table e name
  unmarked := by
    have hselect : (Node.word "SELECT").mark? = none := by decide
    have hfrom : (Node.word "FROM").mark? = none := by decide
    have hsymbol : (Node.token (.symbol '*')).mark? = none := rfl
    simp [Unmarked, tableNodes, hselect, hfrom, hsymbol, e.mark?_nameNode]

/-- The columns of a query, with its keyword. -/
theorem readsAs_columns (e : Engine) {columns : List String} (hcolumns : "*" ∉ columns) :
    Phrase.ReadsAs (.builtin e)
      [.keyword "SELECT ", .content (.sequence (columns.map fun n => .column ⟨n, .none⟩))]
      (.word "SELECT" :: Node.listed (columns.map e.nameNode)) := by
  have htext : (Value.sequence (columns.map fun n => .column ⟨n, .none⟩)).compile (.builtin e) =
      .ok (Text.join ", " (columns.map (Dialect.builtin e).quote)) := by
    refine (renders_compile (.builtin e)).render_texts (fun n hn => ?_) fun n _ => ?_
    · exact (Dialect.builtin e).compile_column fun h => hcolumns (h ▸ hn)
    · simp [Dialect.quote]
  refine ⟨"SELECT" ++ (" " ++ Text.join ", " (columns.map (Dialect.builtin e).quote)), ?_, ?_⟩
  · refine Phrase.write_keyword_of_ok "SELECT " ?_
    rw [Phrase.write_content, htext]
  · rw [Dialect.nodes_word e.separates (by decide) (Dialect.startsApart_blank _),
      Dialect.nodes_blank e.separates, e.nodes_join_quote]
    rfl

/-- The nodes of a query for columns of the rows of a table that pass a filter. -/
def filteredNodes (e : Engine) (columns : List String) (name : String)
    (filter : QueryFilter (.builtin e)) : List Node :=
  .word "SELECT" :: Node.listed (columns.map e.nameNode) ++ [.word "FROM", e.nameNode name] ++
    .word "WHERE" :: filter.nodes

/-- A query for columns of the rows of a table that pass a filter. -/
def filteredQuery (columns : List String) (name : String) {d : Dialect}
    (filter : QueryFilter d) : Select where
  columns := columns.map fun n => .column ⟨n, .none⟩
  source := some (.table ⟨name, .none⟩)
  filter := some filter.conditions

theorem readsAs_filtered (e : Engine) {columns : List String} (hne : columns ≠ [])
    (hcolumns : "*" ∉ columns) (name : String) (filter : QueryFilter (.builtin e)) :
    (filteredQuery columns name filter).toValue.ReadsAs (.builtin e)
      (filteredNodes e columns name filter) := by
  have hwhere : ∀ w ∈ ["WHERE"], IsWord w := by decide
  obtain ⟨s, hs, hns⟩ := ((readsAs_columns e hcolumns).append e.separates
    (e.follows_source name)).append e.separates
      ((Phrase.readsAs_content filter.reads).after e.separates hwhere)
  refine ⟨s, ?_, hns⟩
  rw [Select.compile_eq]
  have hphrases : (filteredQuery columns name filter).phrases =
      [.keyword "SELECT ", .content (.sequence (columns.map fun n => .column ⟨n, .none⟩))] ++
        [.keyword " FROM ", .content (.table ⟨name, .none⟩)] ++
        [.keyword " WHERE ", .content filter.conditions.toValue] := by
    have hhaving : Phrase.conditions " HAVING " none = [] := rfl
    simp [Select.phrases, filteredQuery, hne, Phrase.optional, Phrase.conditions_some,
      filter.filled, hhaving, Phrase.list, Phrase.orderBy, Phrase.count]
  rw [hphrases]
  exact hs

/-- **The query for some columns of the rows of a table that pass a filter.** -/
def filtered (e : Engine) (columns : List String) (hne : columns ≠ []) (hcolumns : "*" ∉ columns)
    (name : String) (filter : QueryFilter (.builtin e)) : QueryCore (.builtin e) where
  query := filteredQuery columns name filter
  bare := ⟨rfl, rfl, rfl⟩
  nodes := filteredNodes e columns name filter
  reads := readsAs_filtered e hne hcolumns name filter
  unmarked := by
    have hselect : (Node.word "SELECT").mark? = none := by decide
    have hfrom : (Node.word "FROM").mark? = none := by decide
    have hwhere : (Node.word "WHERE").mark? = none := by decide
    have hlisted : ∀ n ∈ Node.listed (columns.map e.nameNode), n.mark? = none := by
      intro n hn
      obtain rfl | hn := Node.mem_listed hn
      · rfl
      · obtain ⟨name, -, rfl⟩ := List.mem_map.mp hn
        exact e.mark?_nameNode name
    have hname := e.mark?_nameNode name
    simp only [Unmarked, filteredNodes, List.forall_mem_append, List.forall_mem_cons]
    exact ⟨⟨⟨hselect, hlisted⟩, hfrom, hname, fun _ hn => nomatch hn⟩, hwhere, filter.unmarked⟩

end QueryCore

theorem Value.compile_singleton {d : Dialect} {v : Value} {s : String} (h : v.compile d = .ok s) :
    (Value.sequence [v]).compile d = .ok s := by
  have hjoin : Text.joinFilled ", " [s] = s := by
    by_cases hs : s = "" <;> simp [Text.joinFilled, Text.join, hs]
  rw [Value.compile, compileAll, compileAll, h]
  exact congrArg Except.ok hjoin

namespace QueryTail

/-- Limits without an order. -/
def unordered {d : Dialect} (limit offset : Option Nat) : QueryTail d where
  orderBy := []
  limit := limit
  offset := offset
  items := []
  reads := ⟨"", rfl, rfl⟩
  unmarked := fun _ hn => nomatch hn

theorem readsAs_byColumn (e : Engine) {name : String} (hname : name ≠ "*") (r : Direction) :
    (Value.sequence ([⟨.column ⟨name, .none⟩, r⟩].map OrderItem.toValue)).ReadsAs (.builtin e)
      [e.nameNode name, .word r.keyword] := by
  have hcolumn := (Dialect.builtin e).compile_column hname
  have hdirection :
      Phrase.Follows (.builtin e) [.keyword (" " ++ r.keyword)] [.word r.keyword] := by
    refine ⟨" " ++ r.keyword, by cases r <;> rfl, Dialect.startsApart_blank _, ?_⟩
    rw [Dialect.nodes_blank e.separates, Dialect.nodes,
      Dialect.tokens_word _ (by cases r <;> decide)]
    rfl
  obtain ⟨s, hs, hns⟩ :=
    (Phrase.readsAs_content (e.readsAs_quote hcolumn)).append e.separates hdirection
  refine ⟨s, ?_, hns⟩
  refine Value.compile_singleton ?_
  rw [OrderItem.compile_eq _ ⟨.column ⟨name, .none⟩, r⟩, OrderItem.phrases_eq]
  exact hs

/-- **Limits after the order of a column.** -/
def byColumn (e : Engine) (name : String) (hname : name ≠ "*") (r : Direction)
    (limit offset : Option Nat) : QueryTail (.builtin e) where
  orderBy := [⟨.column ⟨name, .none⟩, r⟩]
  limit := limit
  offset := offset
  items := [e.nameNode name, .word r.keyword]
  reads := readsAs_byColumn e hname r
  unmarked := by
    have hkeyword : (Node.word r.keyword).mark? = none := by cases r <;> decide
    simp [Unmarked, hkeyword, e.mark?_nameNode]

end QueryTail

end PortableSql
