import Mathlib.Data.List.Forall2
import Mathlib.Tactic.SplitIfs
import PortableSql.Proofs.Render.Perform

/-!
# What the two renderers give

* `Dialect.quoteLiteral_ne_empty`, `Dialect.placeholder_ne_empty`: no mark of a literal is empty.
* `Dialect.identifierText_ne_empty`, `Dialect.columnText_ne_empty`, `Dialect.tableText_ne_empty`: no
  written name is empty.
* `quoting`, `binding`: how compiling and preparing write a literal; `renders_compile`,
  `renders_binding`: the equations of the two renderers.
* **`Value.compile_eq`**: the compiled text is the draft of the walk with quoted literals.
* **`Value.prepare_eq`**: the prepared text is the same draft with numbered placeholders.
* `Value.compile_eq_ok_iff`, `Value.prepare_eq_ok_iff`: when the two succeed.
* `marking`: a scribe that never fails; `Value.prepare_eq_error_iff_marking`: preparing fails as it
  does.
-/

namespace PortableSql

/-! ## Marks of literals -/

theorem Decimal.Layout.positional_ne_empty (l : Layout) (d : Digits) : l.positional d ≠ "" := by
  intro h
  unfold positional at h
  dsimp only at h
  split_ifs at h with h₁ h₂
  · simp [String.append_eq_empty_iff] at h
  · simp only [String.append_eq_empty_iff, String.ofList_eq_empty_iff, zeros] at h
    have hd : d.digits.length = 0 := List.length_eq_zero_iff.mpr h.1.1
    have hz : d.exponent.toNat = 0 := by simpa using h.1.2
    unfold Digits.point at h₁
    omega
  · simp [String.append_eq_empty_iff] at h

theorem quoteFloat_ne_empty {x : Float} {s : String} (h : quoteFloat x = .ok s) : s ≠ "" := by
  unfold quoteFloat floatLayout Decimal.Layout.write at h
  cases hx : Decimal.Binary64.ofFloat x with
  | nan => simp [hx] at h
  | infinite negative => simp [hx] at h
  | finite negative m e =>
    simp only [hx, Except.ok.injEq] at h
    subst h
    intro he
    rw [String.append_eq_empty_iff] at he
    split_ifs at he with hm
    · simp at he
    · exact Decimal.Layout.positional_ne_empty _ _ he.2
    · simp at he
    · exact Decimal.Layout.positional_ne_empty _ _ he.2

theorem Dialect.quoteLiteral_ne_empty {d : Dialect} {l : Literal} {s : String}
    (h : d.quoteLiteral l = .ok s) : s ≠ "" := by
  cases l with
  | null => cases h; decide
  | bool b => cases h; cases b <;> decide
  | int n =>
    cases h
    cases n.toInt with
    | ofNat k => exact Nat.repr_ne_empty
    | negSucc k =>
      intro h
      exact Nat.repr_ne_empty (String.append_eq_empty_iff.mp h).2
  | float x => exact quoteFloat_ne_empty h
  | text s => cases h; simp [String.append_eq_empty_iff]
  | blob bytes => cases h; simp [String.append_eq_empty_iff]

theorem Dialect.placeholder_ne_empty (d : Dialect) (position : Nat) :
    d.placeholder position ≠ "" := by
  unfold placeholder Engine.placeholder
  split
  · simp [String.append_eq_empty_iff]
  · decide

/-! ## Names -/

theorem Dialect.identifierText_ne_empty (d : Dialect) (n : Name) : d.identifierText n ≠ "" := by
  simp [identifierText, quote]

theorem Dialect.columnText_ne_empty (d : Dialect) (n : Name) : d.columnText n ≠ "" := by
  rw [columnText]
  split_ifs <;> simp [quote]

theorem Dialect.tableText_ne_empty (d : Dialect) (n : Name) : d.tableText n ≠ "" := by
  simp [tableText, quoteTable, quote]

/-! ## The two scribes -/

/-- Compiling writes a literal as its SQL text. -/
def quoting (d : Dialect) : Scribe (Except RenderError) where
  literal := d.quoteLiteral
  filled l _ f g h := by
    cases hl : d.quoteLiteral l with
    | error e => rfl
    | ok s => exact h s (d.quoteLiteral_ne_empty hl)
  throw_bind _ _ := rfl

/-- Preparing binds a literal and writes its placeholder. -/
def binding (d : Dialect) : Scribe Binding where
  literal := bindLiteral d
  filled l _ f g h := by
    funext bound
    exact congrFun (h _ (d.placeholder_ne_empty _)) _
  throw_bind _ _ := rfl

theorem compileAll_eq_map (d : Dialect) (vs : List Value) :
    compileAll d vs = vs.map (Value.compile d) :=
  eq_map_of_cons rfl (fun _ _ => rfl) vs

theorem compileNamed_eq_map (d : Dialect) (ps : List (String × Value)) :
    compileNamed d ps = ps.map fun p => (p.1, p.2.compile d) :=
  eq_map_of_cons rfl (fun _ _ => rfl) ps

theorem bindingAll_eq_map (d : Dialect) (vs : List Value) :
    bindingAll d vs = vs.map (Value.binding d) :=
  eq_map_of_cons rfl (fun _ _ => rfl) vs

theorem bindingNamed_eq_map (d : Dialect) (ps : List (String × Value)) :
    bindingNamed d ps = ps.map fun p => (p.1, p.2.binding d) :=
  eq_map_of_cons rfl (fun _ _ => rfl) ps

theorem renders_compile (d : Dialect) : Renders d (quoting d) (Value.compile d) where
  literal _ := rfl
  identifier _ := rfl
  column _ := rfl
  table _ := rfl
  sequence items := by rw [Value.compile, compileAll_eq_map]
  expression template positional named := by
    rw [Value.compile, Expression.compile, compileAll_eq_map, compileNamed_eq_map]
    rfl

theorem renders_binding (d : Dialect) : Renders d (binding d) (Value.binding d) where
  literal _ := rfl
  identifier _ := rfl
  column _ := rfl
  table _ := rfl
  sequence items := by rw [Value.binding, bindingAll_eq_map]
  expression template positional named := by
    rw [Value.binding, Expression.binding, bindingAll_eq_map, bindingNamed_eq_map]

/-- The placeholders of `n` literals when `bound` literals have been bound. -/
def Dialect.placeholders (d : Dialect) (bound n : Nat) : List String :=
  (List.range' (bound + 1) n).map d.placeholder

theorem perform_quoting (d : Dialect) (t : Draft) :
    t.perform (quoting d) = t.write <$> d.quoteEach t.literals := by
  induction t with
  | nil => rfl
  | text s t ih =>
    rw [Draft.perform, ih, Draft.literals]
    cases d.quoteEach t.literals <;> rfl
  | literal l t ih =>
    rw [Draft.perform, ih, Draft.literals, Dialect.quoteEach]
    change (d.quoteLiteral l >>= _) = _
    cases d.quoteLiteral l with
    | error e => rfl
    | ok s => cases d.quoteEach t.literals <;> rfl

theorem perform_binding (d : Dialect) (t : Draft) (bound : Array Literal) :
    (t.perform (binding d)).run bound =
      .ok (t.write (d.placeholders bound.size t.literals.length),
        bound ++ t.literals.toArray) := by
  induction t generalizing bound with
  | nil =>
    rw [Draft.literals, Array.append_empty]
    rfl
  | text s t ih =>
    rw [Draft.perform, StateT.run_bind, ih]
    rfl
  | literal l t ih =>
    have hb : bound.push l ++ t.literals.toArray = bound ++ (l :: t.literals).toArray := by simp
    rw [Draft.perform, StateT.run_bind]
    change (t.perform (binding d)).run (bound.push l) >>= _ = _
    rw [ih, hb, Array.size_push]
    rfl

/-! ## The results -/

/-- **The compiled text is the draft with quoted literals.** Of a literal that has no text and the
end of the walk, the literal comes first. -/
theorem Value.compile_eq (d : Dialect) (v : Value) : v.compile d = (do
    let marks ← d.quoteEach (v.walk d).draft.literals
    match (v.walk d).stop with
    | none => return (v.walk d).draft.write marks
    | some e => throw e) := by
  rw [(renders_compile d).eq_perform, Walk.perform, perform_quoting]
  cases d.quoteEach (v.walk d).draft.literals <;> rfl

/-- **The prepared text is the draft with placeholders**, and its literals are bound. -/
theorem Value.prepare_eq (d : Dialect) (v : Value) : v.prepare d =
    match (v.walk d).stop with
    | none => .ok ⟨(v.walk d).draft.write (d.placeholders 0 (v.walk d).draft.literals.length),
        (v.walk d).draft.literals⟩
    | some e => .error e := by
  rw [Value.prepare, (renders_binding d).eq_perform, Walk.perform, StateT.run_bind,
    perform_binding, Array.empty_append]
  cases (v.walk d).stop <;> rfl

theorem Dialect.quoteEach_eq_ok_iff {d : Dialect} {ls : List Literal} {marks : List String} :
    d.quoteEach ls = .ok marks ↔
      List.Forall₂ (fun l mark => d.quoteLiteral l = .ok mark) ls marks :=
  eq_ok_iff_forall₂_of_cons (g := d.quoteEach) rfl fun _ _ => rfl

theorem Value.compile_eq_ok_iff {d : Dialect} {v : Value} {text : String} :
    v.compile d = .ok text ↔ (v.walk d).stop = none ∧
      ∃ marks, d.quoteEach (v.walk d).draft.literals = .ok marks ∧
        text = (v.walk d).draft.write marks := by
  rw [Value.compile_eq]
  cases d.quoteEach (v.walk d).draft.literals with
  | error e => exact ⟨fun h => (nomatch h), fun ⟨_, _, h, _⟩ => (nomatch h)⟩
  | ok marks =>
    cases (v.walk d).stop with
    | some e => exact ⟨fun h => (nomatch h), fun h => (nomatch h.1)⟩
    | none =>
      constructor
      · rintro ⟨⟩
        exact ⟨rfl, marks, rfl, rfl⟩
      · rintro ⟨-, _, ⟨⟩, rfl⟩
        rfl

theorem Value.prepare_eq_ok_iff {d : Dialect} {v : Value} {p : Prepared} :
    v.prepare d = .ok p ↔ (v.walk d).stop = none ∧
      p = ⟨(v.walk d).draft.write (d.placeholders 0 (v.walk d).draft.literals.length),
        (v.walk d).draft.literals⟩ := by
  rw [Value.prepare_eq]
  cases (v.walk d).stop with
  | some e => exact ⟨fun h => (nomatch h), fun h => (nomatch h.1)⟩
  | none => rw [Except.ok.injEq, eq_comm, eq_self, true_and]

/-! ## Failures of preparing -/

/-- Every literal is written as one mark, which never fails. -/
def marking : Scribe (Except RenderError) where
  literal _ := .ok "?"
  filled _ _ f g h := h "?" (by decide)
  throw_bind _ _ := rfl

theorem perform_marking (t : Draft) : ∃ s, t.perform marking = .ok s := by
  induction t with
  | nil => exact ⟨"", rfl⟩
  | text s t ih =>
    obtain ⟨u, hu⟩ := ih
    exact ⟨s ++ u, by rw [Draft.perform, hu]; rfl⟩
  | literal l t ih =>
    obtain ⟨u, hu⟩ := ih
    exact ⟨"?" ++ u, by rw [Draft.perform, hu]; rfl⟩

/-- Preparing fails as performing the walk with marks does. -/
theorem Value.prepare_eq_error_iff_marking {d : Dialect} {v : Value} {e : RenderError} :
    v.prepare d = .error e ↔ (v.walk d).perform marking = .error e := by
  obtain ⟨s, hs⟩ := perform_marking (v.walk d).draft
  rw [Value.prepare_eq, Walk.perform, hs]
  cases (v.walk d).stop with
  | none => constructor <;> intro h <;> cases h
  | some e' =>
    change Except.error e' = Except.error e ↔ Except.error e' = Except.error e
    rw [Except.error.injEq, Except.error.injEq]

end PortableSql
