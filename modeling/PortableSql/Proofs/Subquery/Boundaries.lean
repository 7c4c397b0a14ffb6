import PortableSql.Proofs.Subquery.Comparing
import PortableSql.Proofs.Subquery.Levels
import PortableSql.Proofs.Subquery.Nest

/-!
# The levels of clauses

The clauses of a query and of the one that it takes its rows from are written in a row. On which
level each of them stands can be told from the text where none of them can move to the other query.

* **`SelectNest.Tight`**: no clause can move.
* `SelectNest.top`, `SelectNest.setTop`, `SelectNest.lower`: the outermost query, and the rest.
* **`SelectNest.exists_moved`**: a clause that can move makes another nest with the same text.
* **`SelectNest.levels_of_compile_eq`**: what the text tells about a nest.
* `SelectNest.same_text_other_levels`: what it does not tell.
-/

namespace PortableSql

namespace SelectNest

variable {d : Dialect}

/-! ## Levels -/

theorem length_levels (d : Dialect) (n : SelectNest) :
    (n.levels d).length = (n.heads d).length := by
  induction n with
  | table q t => rfl
  | query q inner ih => rw [levels, heads, List.length_append, ih, List.length_singleton,
      List.length_cons]

theorem isChain_levels (d : Dialect) (n : SelectNest) :
    ∀ l ∈ n.levels d, l.IsChain Section.Before := by
  induction n with
  | table q t => exact List.forall_mem_singleton.mpr (q.pairwise_sections d).isChain
  | query q inner ih =>
    exact List.forall_mem_append.mpr
      ⟨ih, List.forall_mem_singleton.mpr (q.pairwise_sections d).isChain⟩

/-- **No clause can move to another level**: of a query and the one that it takes its rows from,
neither has a clause, or both have, and the first clause of the outer one does not come after the
last clause of the inner one in the order of clauses. -/
def Tight (d : Dialect) (n : SelectNest) : Prop := Held Section.Before (n.levels d)

/-! ## Clauses that move -/

/-- The outermost query. -/
def top : SelectNest → Select
  | table q _ => q
  | query q _ => q

/-- The nest with another outermost query. -/
def setTop (q : Select) : SelectNest → SelectNest
  | table _ t => table q t
  | query _ inner => query q inner

/-- The levels below the outermost query. -/
def lower (d : Dialect) : SelectNest → List (List Section)
  | table _ _ => []
  | query _ inner => inner.levels d

theorem levels_setTop (q : Select) (n : SelectNest) :
    (n.setTop q).levels d = n.lower d ++ [q.sections d] := by
  cases n <;> rfl

theorem levels_eq (n : SelectNest) : n.levels d = n.lower d ++ [n.top.sections d] := by
  cases n <;> rfl

theorem heads_setTop {q : Select} {n : SelectNest} (h : q.headPhrases = n.top.headPhrases) :
    (n.setTop q).heads d = n.heads d := by
  cases n with
  | table r t => rw [setTop, heads, h]; rfl
  | query r inner => rw [setTop, heads, h]; rfl

theorem root_setTop (q : Select) (n : SelectNest) : (n.setTop q).root = n.root := by
  cases n <;> rfl

theorem Clear.top {n : SelectNest} (hn : n.Clear d) : n.top.Clear d := by
  cases n with
  | table q t => exact hn
  | query q inner => exact hn.1

theorem Clear.setTop {q : Select} {n : SelectNest} (hn : n.Clear d) (hq : q.Clear d) :
    (n.setTop q).Clear d := by
  cases n with
  | table r t => exact hq
  | query r inner => exact ⟨hq, hn.2⟩

/-- **Clauses may be divided in another way among two queries**, where the one is the source of the
other: the text is the same. -/
theorem text_query_setTop (d : Dialect) {q p r : Select} {n : SelectNest}
    (hr : r.headPhrases = q.headPhrases) (hp : p.headPhrases = n.top.headPhrases)
    (h : p.sections d ++ r.sections d = n.top.sections d ++ q.sections d) :
    (query r (n.setTop p)).text d = (query q n).text d := by
  have hlevels : ((n.setTop p).levels d ++ [r.sections d]).flatten =
      (n.levels d ++ [q.sections d]).flatten := by
    rw [levels_setTop, levels_eq]
    simp [h]
  rw [text, text, heads, heads, heads_setTop hp, hr, root, root, root_setTop, levels, levels,
    hlevels]

theorem levels_query_ne {q r : Select} (h : r.sections d ≠ q.sections d) (m n : SelectNest) :
    (query r m).levels d ≠ (query q n).levels d := by
  intro heq
  have hlast := congrArg List.getLast? heq
  rw [levels, levels, List.getLast?_concat, List.getLast?_concat] at hlast
  exact h (Option.some.inj hlast)

/-- A query and its source can divide their clauses in another way, if these are in order and there
is one. -/
theorem exists_divided {q : Select} {n : SelectNest} (hq : q.Clear d) (hn : n.Clear d)
    (horder : ∀ s ∈ n.top.sections d, ∀ t ∈ q.sections d, s.Before t)
    (hne : ¬(n.top.sections d = [] ∧ q.sections d = [])) :
    ∃ m : SelectNest, m.Clear d ∧ m.text d = (query q n).text d ∧
      m.levels d ≠ (query q n).levels d := by
  have hjoined (r : Select) :
      (r.withClauses n.top q).sections d = n.top.sections d ++ q.sections d :=
    r.sections_withClauses d horder
  by_cases hempty : q.sections d = []
  · -- all clauses go out
    refine ⟨query (q.withClauses n.top q) (n.setTop n.top.bare), ⟨?_, ?_⟩, ?_, ?_⟩
    · exact hq.withClauses hn.top.clauses hq.clauses
    · exact hn.setTop hn.top.bare
    · exact text_query_setTop d rfl rfl (by rw [hjoined, Select.sections_bare, List.nil_append])
    · refine levels_query_ne ?_ _ _
      rw [hjoined, hempty, List.append_nil]
      exact fun h => hne ⟨h, hempty⟩
  · -- all clauses go in
    refine ⟨query q.bare (n.setTop (n.top.withClauses n.top q)), ⟨hq.bare, ?_⟩, ?_, ?_⟩
    · exact hn.setTop (hn.top.withClauses hn.top.clauses hq.clauses)
    · exact text_query_setTop d rfl rfl (by rw [hjoined, Select.sections_bare, List.append_nil])
    · refine levels_query_ne ?_ _ _
      rw [Select.sections_bare]
      exact Ne.symm hempty

/-- **Where a clause can move, another nest has the same text.** -/
theorem exists_moved {n : SelectNest} (hn : n.Clear d) (h : ¬n.Tight d) :
    ∃ m : SelectNest, m.Clear d ∧ m.text d = n.text d ∧ m.levels d ≠ n.levels d := by
  induction n with
  | table q t => exact absurd (List.isChain_singleton _) h
  | query q inner ih =>
    obtain ⟨hq, hinner⟩ := hn
    by_cases htight : inner.Tight d
    · have hboundary : ¬(inner.top.sections d = [] ∧ q.sections d = [] ∨
          Breaks Section.Before (inner.top.sections d) (q.sections d)) := by
        intro hheld
        refine h (held_concat.mpr ⟨htight, fun l hl => ?_⟩)
        rw [levels_eq, List.getLast?_concat, Option.mem_some_iff] at hl
        rwa [← hl]
      obtain ⟨hne, hbreaks⟩ := not_or.mp hboundary
      have horder := forall_of_not_breaks (r := Section.Before) (fun _ _ _ => Section.Before.trans)
        (inner.top.pairwise_sections d) (q.pairwise_sections d) hbreaks
      exact exists_divided hq hinner horder hne
    · obtain ⟨m, hm, htext, hlevels⟩ := ih hinner htight
      refine ⟨query q m, ⟨hq, hm⟩, by rw [text_query, text_query, htext], fun heq => hlevels ?_⟩
      exact List.append_cancel_right heq

/-! ## What the text tells -/

/-- **What the text of a nest tells about it.** Nests with the same text are as deep, have the same
text before the source on every level and so ask for the same there, take their rows from the same
table, and have the same clauses in the same order, from the innermost query on. If no clause can
move, they have them on the same levels; and if one can, there is a nest with the same text that has
them on others. -/
theorem levels_of_compile_eq (hd : d.Quotable) {m n : SelectNest} (hm : m.Clear d)
    (hn : n.Clear d) (h : m.toValue.compile d = n.toValue.compile d) :
    m.heads d = n.heads d ∧ List.Forall₂ (Select.AsksLike d) m.queries n.queries ∧
      d.tableText m.root = d.tableText n.root ∧
      (m.levels d).flatten = (n.levels d).flatten ∧
      (n.Tight d → m.levels d = n.levels d) ∧
      (¬n.Tight d → ∃ k : SelectNest, k.Clear d ∧
        k.toValue.compile d = n.toValue.compile d ∧ k.levels d ≠ n.levels d) := by
  rw [compile_eq hm, compile_eq hn, Except.ok.injEq] at h
  obtain ⟨hheads, htable, hclauses⟩ := eq_of_text_eq hd hm hn h
  have hqueries := asksLike_of_heads_eq hm hn hheads
  refine ⟨hheads, hqueries, htable, hclauses, fun htight => ?_, fun hloose => ?_⟩
  · have hlength : (n.levels d).length = (m.levels d).length := by
      rw [length_levels, length_levels, hheads]
    exact (Held.eq_of_flatten_eq htight (isChain_levels d m) hlength hclauses.symm).symm
  · obtain ⟨k, hk, htext, hlevels⟩ := exists_moved hn hloose
    exact ⟨k, hk, by rw [compile_eq hk, compile_eq hn, htext], hlevels⟩

/-- Two queries with conditions and limits, and a limit that is written as the greatest one. -/
theorem levels_of_compile_eq_capped :
    let d : Dialect := .builtin .mysql
    let outer : Select := .comparing "b" "LIKE" "WHERE" none (some 2)
    let nest (limit : Nat) : SelectNest :=
      .query outer (.table (.comparing "x`" "=" "it's (" (some limit) none) ⟨"t", .none⟩)
    let m : SelectNest := nest 18446744073709551615
    let n : SelectNest := nest 9223372036854775807
    d.Quotable ∧ m.Clear d ∧ n.Clear d ∧ m.toValue.compile d = n.toValue.compile d ∧ n.Tight d ∧
      m.levels d = n.levels d ∧ n.levels d =
        [[⟨.filter, "`x``` = 'it''s ('"⟩, ⟨.limit, "9223372036854775807"⟩],
          [⟨.filter, "`b` LIKE 'WHERE'"⟩, ⟨.offset, "2"⟩]] := by
  intro d outer nest m n
  have hclear (limit : Nat) : (nest limit).Clear d :=
    ⟨Select.clear_comparing .mysql _ _ _ (by decide) (by decide),
      Select.clear_comparing .mysql _ _ _ (by decide) (by decide)⟩
  have hlevels : n.levels d =
      [[⟨.filter, "`x``` = 'it''s ('"⟩, ⟨.limit, "9223372036854775807"⟩],
        [⟨.filter, "`b` LIKE 'WHERE'"⟩, ⟨.offset, "2"⟩]] := by decide
  have htight : n.Tight d := by
    rw [Tight, hlevels]
    decide
  have htext : m.toValue.compile d = n.toValue.compile d := by decide
  obtain ⟨-, -, -, -, hsame, -⟩ :=
    levels_of_compile_eq Engine.mysql.quotable (hclear _) (hclear _) htext
  exact ⟨Engine.mysql.quotable, hclear _, hclear _, htext, htight, hsame htight, hlevels⟩

/-- **What the text does not tell**: on which level a single condition stands; what raw columns and
conditions hold, or leave open; and what is a table where the delimiters of names are letters. -/
theorem same_text_other_levels :
    let d : Dialect := .builtin .generic
    let lettered : Dialect := .configured ⟨.generic, "", some ⟨'S', 'z'⟩⟩
    let a : Name := ⟨"a", .none⟩
    let raw (s : String) : Value := .expression (.raw s)
    let holds (s : String) : Option Conditions := some (Conditions.empty.andValue (raw s))
    let SameText (d : Dialect) (m n : SelectNest) (text : String) : Prop :=
      m.toValue.compile d = .ok text ∧ n.toValue.compile d = .ok text ∧ m.levels d ≠ n.levels d
    SameText d (query {} (table { filter := holds "x" } a))
        (query { filter := holds "x" } (table {} a)) "SELECT * FROM SELECT * FROM \"a\" WHERE x" ∧
      SameText d (query {} (table {} a)) (table { columns := [raw "* FROM SELECT *"] } a)
        "SELECT * FROM SELECT * FROM \"a\"" ∧
      SameText d (table { filter := holds "x", limit := some 5 } a)
        (table { filter := holds "x LIMIT 5" } a) "SELECT * FROM \"a\" WHERE x LIMIT 5" ∧
      SameText d (table { filter := holds "'", having := holds "'" } a)
        (table { filter := holds "' HAVING '" } a) "SELECT * FROM \"a\" WHERE ' HAVING '" ∧
      SameText lettered (query {} (table {} a)) (table {} ⟨"ELECT * FROM Sa", .none⟩)
        "SELECT * FROM SELECT * FROM Saz" := by
  intro d lettered a raw holds SameText
  refine ⟨⟨?_, ?_, ?_⟩, ⟨?_, ?_, ?_⟩, ⟨?_, ?_, ?_⟩, ⟨?_, ?_, ?_⟩, ⟨?_, ?_, ?_⟩⟩ <;> decide

end SelectNest

end PortableSql
