import PortableSql.Proofs.Render.Outcome

/-!
# Compiled and prepared text agree

* `Prepared.SameSegments`: a text has the segments of a prepared one, with quoted literals in the
  places of the placeholders.
* **`Value.prepare_compile_agree`**: the compiled text of a value has the segments of its prepared
  text, and the bound literals are those that the value reaches.
-/

namespace PortableSql

/-- **The text has the segments of the prepared one**: the prepared text is `t₀ m₁ t₁ … mₙ tₙ` with
the placeholders of `1, …, n` for marks, and the text is the same with the quoted literals. -/
def Prepared.SameSegments (d : Dialect) (p : Prepared) (text : String) : Prop :=
  ∃ segments quoted : List String,
    segments.length = p.binds.length + 1 ∧
    List.Forall₂ (fun l mark => d.quoteLiteral l = .ok mark) p.binds quoted ∧
    p.sql = Text.weave segments ((List.range' 1 p.binds.length).map d.placeholder) ∧
    text = Text.weave segments quoted

/-- **Compiled and prepared text agree.** -/
theorem Value.prepare_compile_agree {d : Dialect} {v : Value} {p : Prepared} {text : String}
    (hp : v.prepare d = .ok p) (hc : v.compile d = .ok text) :
    p.binds = v.reached ∧ p.SameSegments d text := by
  obtain ⟨hs, rfl⟩ := prepare_eq_ok_iff.mp hp
  obtain ⟨-, quoted, hq, rfl⟩ := compile_eq_ok_iff.mp hc
  have hl := Dialect.quoteEach_eq_ok_iff.mp hq
  refine ⟨v.meets_reached d hs, (v.walk d).draft.segments, quoted, Draft.length_segments _, hl,
    ?_, ?_⟩
  · rw [Draft.weave_segments _ _ (by rw [List.length_map, List.length_range'])]
    rfl
  · rw [Draft.weave_segments _ _ hl.length_eq.symm]

/-- A nested sequence with an empty item, a literal with a placeholder sign in it, a token that
occurs twice and a named value without a token. -/
theorem Value.prepare_compile_agree_nested :
    let v : Value := .expression ⟨"? IN (?) AND n > :n OR m < :n",
      [.column ⟨"id", .none⟩,
        .sequence [.literal (.text "x'?"), .sequence [], .literal (.bool true)]],
      [(":n", .literal (.int 5)), (":unused", .literal .null)]⟩
    let p : Prepared := ⟨"\"id\" IN ($1, $2) AND n > $3 OR m < $4",
      [.text "x'?", .bool true, .int 5, .int 5]⟩
    let text := "\"id\" IN ('x''?', '1') AND n > 5 OR m < 5"
    v.prepare (.builtin .postgres) = .ok p ∧ v.compile (.builtin .postgres) = .ok text ∧
      p.binds = v.reached ∧ p.SameSegments (.builtin .postgres) text :=
  ⟨rfl, rfl, Value.prepare_compile_agree rfl rfl⟩

end PortableSql
