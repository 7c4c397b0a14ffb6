import PortableSql.Proofs.Conditions.ColumnTest
import PortableSql.Proofs.Subquery.Clauses

/-!
# Queries that compare a column

Whatever the name of the column and the texts that it is tested with hold, they hold no keyword.

* `Dialect.free_digits`: a number is no keyword.
* **`Conditions.ColumnTest.free_text`**: a test of a column holds no keyword.
* **`Select.comparing`**: all columns, where a column compares with a text, up to limits.
* **`Select.clear_comparing`**: the text of such a query holds no keywords but its own.
-/

namespace PortableSql

/-- A number is no keyword. -/
theorem Dialect.free_digits (d : Dialect) (n : Nat) : d.Free ClauseKind.keywords (toString n) := by
  have hkeywords : ∀ k ∈ ClauseKind.keywords, k ≠ [] ∧
      ∀ w ∈ k, ¬w.toList.all Char.isDigit = true := by decide
  have hdigits : (toString n).toList.all Char.isDigit = true := by
    refine List.all_eq_true.mpr fun c hc => ?_
    rw [Nat.toString_eq_ofList_toDigits, String.toList_ofList] at hc
    exact Nat.isDigit_of_mem_toDigits (by decide) (by decide) hc
  refine d.free_of_words (d.words_word (Phrase.isWord_digits n)) fun k hk => ?_
  obtain ⟨hne, hwords⟩ := hkeywords k hk
  obtain ⟨w, k, rfl⟩ := List.exists_cons_of_ne_nil hne
  refine ⟨w, List.mem_cons_self, fun hw => hwords w List.mem_cons_self ?_⟩
  rwa [Option.some.inj (List.mem_singleton.mp hw)]

/-- **A test of a column holds no keyword.** -/
theorem Conditions.ColumnTest.free_text (e : Engine) (name : String) {t : ColumnTest}
    (ht : t.Fits) : (Dialect.builtin e).Free ClauseKind.keywords (t.text e name) := by
  have hoperators : ∀ operator ∈ comparisons ++ memberships ++ ranges,
      ∀ k ∈ ClauseKind.keywords, ∃ w ∈ k, w ≠ "AND" ∧
        some w ∉ (operatorTokens operator).map fun t => (Node.token t).word? := by
    decide
  have hright : ∀ w ∈ t.rightNodes.map Node.word?, w = none ∨ w = some "AND" := by
    cases t <;> simp [rightNodes, Node.word?, Engine.textNode, Node.word]
  have hwords : (Dialect.builtin e).words (t.text e name) = some (none ::
      ((operatorTokens t.operator).map fun t => (Node.token t).word?) ++
        t.rightNodes.map Node.word?) := by
    rw [Dialect.words, nodes_text e ht, nodes]
    simp [Engine.nameNode, Node.word?, Function.comp_def]
  refine Dialect.free_of_words hwords fun k hk => ?_
  obtain ⟨w, hw, hand, hnot⟩ := hoperators t.operator (mem_operators ht) k hk
  refine ⟨w, hw, fun hmem => ?_⟩
  rw [List.mem_append, List.mem_cons] at hmem
  rcases hmem with (hmem | hmem) | hmem
  · cases hmem
  · exact hnot hmem
  · rcases hright _ hmem with h | h
    · cases h
    · exact hand (Option.some.inj h)

namespace Select

/-- **All columns of the rows where a column compares with a text**, up to limits. -/
def comparing (name operator value : String) (limit offset : Option Nat) : Select where
  filter := some (Conditions.predicate (.column ⟨name, .none⟩) operator (.literal (.text value)))
  limit := limit
  offset := offset

/-- **The text of such a query holds no keywords but its own.** -/
theorem clear_comparing (e : Engine) {name operator : String} (value : String)
    (limit offset : Option Nat) (hname : name ≠ "*") (hop : operator ∈ comparisons) :
    (comparing name operator value limit offset).Clear (.builtin e) where
  head := by
    have hwords : (Dialect.builtin e).words "SELECT *" = some [some "SELECT", none] := by
      cases e <;> decide
    exact ⟨"SELECT *", by rfl, Dialect.free_of_words hwords (by decide)⟩
  clauses k ps hps := by
    have hcount (n : Option Nat)
        (h : ps ∈ n.map fun n => [Phrase.keyword (toString (cappedCount n))]) :
        Phrase.Clear (.builtin e) ClauseKind.keywords ps := by
      obtain ⟨n, -, rfl⟩ := Option.map_eq_some_iff.mp h
      refine ⟨_, ?_, Dialect.free_digits _ (cappedCount n)⟩
      rw [Phrase.write, Phrase.write, pure_bind, String.append_empty]
      rfl
    cases k with
    | filter =>
      let t := Conditions.ColumnTest.comparison operator value
      have ht : t.Fits := hop
      have hfilter : (comparing name operator value limit offset).filter = some (t.chain name) :=
        rfl
      rw [content?, hfilter, conditions?, t.isEmpty_chain, if_neg Bool.false_ne_true] at hps
      obtain rfl := Option.some.inj hps
      refine ⟨t.text e name, ?_, t.free_text e name ht⟩
      rw [Phrase.write_content, t.compile_chain e hname ht]
    | limit => exact hcount limit hps
    | offset => exact hcount offset hps
    | groupBy | having | orderBy => cases hps

end Select

end PortableSql
