import PortableSql.Proofs.Name.Wordless
import PortableSql.Proofs.Subquery.Clauses

/-!
# Queries of queries of a table

A query may take its rows from another query, which is written without parentheses: after the table
the clauses of all queries follow, from the innermost query on. The text tells how deep the queries
are, and which clauses they have in which order.

* **`SelectNest`**, `SelectNest.toValue`: queries in queries.
* **`SelectNest.heads`**, `SelectNest.root`, **`SelectNest.levels`**, `SelectNest.queries`: what
  they consist of.
* `SelectNest.Clear`, **`SelectNest.compile_eq`**: what is written for clear queries.
* `SelectNest.head_inj`, `SelectNest.tableText_ne_opening`: what comes first in the text.
* `SelectNest.asksLike_of_heads_eq`: what the heads determine.
* `SelectNest.heads_of_text_eq`, **`SelectNest.eq_of_text_eq`**: what the text determines.
-/

namespace PortableSql

/-! ## Nests -/

/-- **A query of a table, or of another query.** The sources that the queries have themselves play
no part. -/
inductive SelectNest where
  | table (q : Select) (t : Name)
  | query (q : Select) (inner : SelectNest)

namespace SelectNest

/-- The outermost query as a value. -/
def toValue : SelectNest → Value
  | table q t => ({ q with source := some (.table t) } : Select).toValue
  | query q inner => ({ q with source := some inner.toValue } : Select).toValue

/-- The table of the innermost query. -/
def root : SelectNest → Name
  | table _ t => t
  | query _ inner => inner.root

/-- **What the queries ask for**, from the outermost one on. -/
def heads (d : Dialect) : SelectNest → List String
  | table q _ => [Phrase.text d q.headPhrases]
  | query q inner => Phrase.text d q.headPhrases :: inner.heads d

/-- **The clauses of the queries**, from the innermost one on. -/
def levels (d : Dialect) : SelectNest → List (List Section)
  | table q _ => [q.sections d]
  | query q inner => inner.levels d ++ [q.sections d]

/-- The queries, from the outermost one on. -/
def queries : SelectNest → List Select
  | table q _ => [q]
  | query q inner => q :: inner.queries

/-- The texts of all queries hold no keywords but their own. -/
def Clear (d : Dialect) : SelectNest → Prop
  | table q _ => q.Clear d
  | query q inner => q.Clear d ∧ inner.Clear d

/-! ## What is written -/

/-- The text before the table. -/
def opening : List String → String
  | [] => ""
  | h :: hs => h ++ leadText ["FROM"] ++ opening hs

/-- **The text of the queries.** -/
def text (d : Dialect) (n : SelectNest) : String :=
  opening (n.heads d) ++ (d.tableText n.root ++ Section.textAll (n.levels d).flatten)

end SelectNest

/-- A clear query of a source. -/
theorem Select.Clear.compile_source {d : Dialect} {q : Select} (hq : q.Clear d) {v : Value}
    {s : String} (hv : v.compile d = .ok s) :
    ({ q with source := some v } : Select).toValue.compile d =
      .ok (Phrase.text d q.headPhrases ++ leadText ["FROM"] ++ s ++
        Section.textAll (q.sections d)) := by
  have hsource : Phrase.write (Value.compile d) (Phrase.optional " FROM " (some v)) =
      .ok (leadText ["FROM"] ++ s) :=
    Phrase.write_keyword_of_ok _ (by rw [Phrase.write_content, hv])
  have htext : Phrase.text d q.headPhrases ++ leadText ["FROM"] ++ s =
      Phrase.text d q.headPhrases ++ (leadText ["FROM"] ++ s) := String.append_assoc
  rw [Select.compile_eq, Select.phrases_eq, htext]
  exact Phrase.write_append_of_ok (Phrase.write_append_of_ok hq.head.write_eq hsource)
    hq.write_clausePhrases

namespace SelectNest

variable {d : Dialect}

theorem text_query (d : Dialect) (q : Select) (inner : SelectNest) :
    (query q inner).text d = Phrase.text d q.headPhrases ++ leadText ["FROM"] ++ inner.text d ++
      Section.textAll (q.sections d) := by
  simp only [text, heads, opening, root, levels, List.flatten_append, List.flatten_singleton,
    Section.textAll_append, String.append_assoc]

/-- **Clear queries are written as the text.** -/
theorem compile_eq {n : SelectNest} (hn : n.Clear d) : n.toValue.compile d = .ok (n.text d) := by
  induction n with
  | table q t =>
    rw [toValue, Select.Clear.compile_source hn (v := .table t) rfl]
    simp only [text, heads, opening, root, levels, List.flatten_singleton, String.append_assoc,
      String.append_empty]
  | query q inner ih =>
    rw [toValue, hn.1.compile_source (ih hn.2), text_query]

/-! ## What is read -/

theorem opening_cons_append (h : String) (hs : List String) (x : String) :
    opening (h :: hs) ++ x = h ++ leadText ["FROM"] ++ (opening hs ++ x) := by
  rw [opening, String.append_assoc]

/-- The text begins with `SELECT`. -/
theorem exists_opening {n : SelectNest} (hn : n.Clear d) :
    ∃ y, opening (n.heads d) = "SELECT" ++ (" " ++ y) := by
  have hhead {q : Select} (hq : q.Clear d) (r : String) :
      ∃ y, Phrase.text d q.headPhrases ++ r = "SELECT" ++ (" " ++ y) := by
    obtain ⟨y, -, hy⟩ := Phrase.write_keyword_eq_ok hq.head.write_eq
    have hselect : "SELECT " = "SELECT" ++ " " := rfl
    exact ⟨y ++ r, by rw [hy, hselect]; simp only [String.append_assoc]⟩
  cases n with
  | table q t =>
    rw [heads, opening, String.append_assoc]
    exact hhead hn _
  | query q inner =>
    rw [heads, opening, String.append_assoc]
    exact hhead hn.1 _

/-- A query asks for what stands before its `FROM`. -/
theorem head_inj (hd : d.Separates) {q r : Select} (hq : q.Clear d) (hr : r.Clear d) {x y : String}
    (h : Phrase.text d q.headPhrases ++ leadText ["FROM"] ++ x =
      Phrase.text d r.headPhrases ++ leadText ["FROM"] ++ y) :
    Phrase.text d q.headPhrases = Phrase.text d r.headPhrases ∧ x = y := by
  have hsharp : Sharp [["FROM"]] := by decide
  have hled (x : String) : Led [["FROM"]] (leadText ["FROM"] ++ x) :=
    .inr ⟨_, List.mem_cons_self, x, rfl⟩
  rw [String.append_assoc, String.append_assoc] at h
  obtain ⟨hhead, hrest⟩ := hq.head.free.append_inj hsharp hd hr.head.free (hled x) (hled y) h
  exact ⟨hhead, (String.append_right_inj _).mp hrest⟩

/-- A table is no query. -/
theorem tableText_ne_opening (hd : d.Quotable) {t : Name} {n : SelectNest} (hn : n.Clear d)
    {x y : String} (hx : Dialect.StartsApart x) :
    d.tableText t ++ x ≠ opening (n.heads d) ++ y := by
  have hselect : IsWord "SELECT" := by decide
  obtain ⟨z, hz⟩ := exists_opening hn
  rw [hz, String.append_assoc, String.append_assoc]
  exact (Dialect.wordless_tableText hd t).append_ne hd.1 hselect hx

/-- **How deep the queries are, and what they ask for**, can be told from what stands before the
table and from the table. -/
theorem heads_of_text_eq (hd : d.Quotable) {m n : SelectNest} (hm : m.Clear d) (hn : n.Clear d)
    {x y : String} (hx : Dialect.StartsApart x) (hy : Dialect.StartsApart y)
    (h : opening (m.heads d) ++ (d.tableText m.root ++ x) =
      opening (n.heads d) ++ (d.tableText n.root ++ y)) :
    m.heads d = n.heads d ∧ d.tableText m.root ++ x = d.tableText n.root ++ y := by
  induction m generalizing n with
  | table q t =>
    cases n with
    | table r u =>
      simp only [heads, opening_cons_append] at h
      obtain ⟨hhead, hrest⟩ := head_inj hd.1 hm hn h
      rw [opening, String.empty_append, String.empty_append] at hrest
      exact ⟨by rw [heads, heads, hhead], hrest⟩
    | query r inner =>
      simp only [heads, opening_cons_append] at h
      obtain ⟨-, hrest⟩ := head_inj hd.1 hm hn.1 h
      rw [opening, String.empty_append] at hrest
      exact absurd hrest (tableText_ne_opening hd hn.2 hx)
  | query q inner ih =>
    cases n with
    | table r u =>
      simp only [heads, opening_cons_append] at h
      obtain ⟨-, hrest⟩ := head_inj hd.1 hm.1 hn h
      rw [opening, String.empty_append] at hrest
      exact absurd hrest.symm (tableText_ne_opening hd hm.2 hy)
    | query r inner' =>
      simp only [heads, opening_cons_append] at h
      obtain ⟨hhead, hrest⟩ := head_inj hd.1 hm.1 hn.1 h
      obtain ⟨hheads, htable⟩ := ih hm.2 hn.2 hrest
      exact ⟨by rw [heads, heads, hhead, hheads], htable⟩

/-- **Nests with the same heads ask for the same on every level.** -/
theorem asksLike_of_heads_eq {m n : SelectNest} (hm : m.Clear d) (hn : n.Clear d)
    (h : m.heads d = n.heads d) : List.Forall₂ (Select.AsksLike d) m.queries n.queries := by
  have hne (k : SelectNest) : k.heads d ≠ [] := by cases k <;> exact List.cons_ne_nil _ _
  induction m generalizing n with
  | table q t =>
    cases n with
    | table r u =>
      exact .cons ((Select.Clear.asksLike_iff hm hn).mp (List.cons.inj h).1) .nil
    | query r inner => exact absurd (List.cons.inj h).2.symm (hne inner)
  | query q inner ih =>
    cases n with
    | table r u => exact absurd (List.cons.inj h).2 (hne inner)
    | query r inner' =>
      obtain ⟨hhead, hrest⟩ := List.cons.inj h
      exact .cons ((hm.1.asksLike_iff hn.1).mp hhead) (ih hm.2 hn.2 hrest)

theorem free_levels {n : SelectNest} (hn : n.Clear d) :
    ∀ s ∈ (n.levels d).flatten, d.Free ClauseKind.keywords s.text := by
  induction n with
  | table q t =>
    rw [levels, List.flatten_singleton]
    exact hn.free_sections
  | query q inner ih =>
    rw [levels, List.flatten_append, List.flatten_singleton]
    exact List.forall_mem_append.mpr ⟨ih hn.2, hn.1.free_sections⟩

/-- **The text determines the heads, the table, and the clauses in their order.** -/
theorem eq_of_text_eq (hd : d.Quotable) {m n : SelectNest} (hm : m.Clear d) (hn : n.Clear d)
    (h : m.text d = n.text d) :
    m.heads d = n.heads d ∧ d.tableText m.root = d.tableText n.root ∧
      (m.levels d).flatten = (n.levels d).flatten := by
  have hled (n : SelectNest) := Section.led_textAll (n.levels d).flatten
  have hfree (t : Name) : d.Free ClauseKind.keywords (d.tableText t) :=
    (Dialect.wordless_tableText hd t).free (by decide)
  obtain ⟨hheads, hrest⟩ := heads_of_text_eq hd hm hn (hled m).startsApart (hled n).startsApart h
  obtain ⟨htable, hclauses⟩ := (hfree m.root).append_inj ClauseKind.sharp_keywords hd.1
    (hfree n.root) (hled m) (hled n) hrest
  exact ⟨hheads, htable, Section.textAll_inj hd.1 (free_levels hm) (free_levels hn) hclauses⟩

end SelectNest

end PortableSql
