import PortableSql.Proofs.Render.Phrase
import PortableSql.Proofs.Template.Decomposition

/-!
# The contents of phrases

Where a value is written as phrases, only their contents can fail. Both renderers then end with the
error of the first content that fails.

* `Phrase.contents`: the values in phrases.
* **`Value.WrittenAs`**: every renderer writes the value as phrases; `Value.writtenAs_of_split`: an
  expression that has phrases is written as these.
* `Value.writtenAs_of_placeholders`: a template with a placeholder for every value has phrases.
* `firstError?`, `Phrase.write_eq_error_iff_firstError?`: phrases fail as the first content that
  fails.
* **`Value.FailsAs`**, `Value.WrittenAs.failsAs`: both renderers fail as the first of some values
  that fails.
-/

namespace PortableSql

/-! ## Contents -/

namespace Phrase

/-- The value of a phrase. -/
def content? : Phrase → Option Value
  | .keyword _ => none
  | .content v => some v

/-- The values of phrases, in order. -/
def contents (ps : List Phrase) : List Value := ps.filterMap content?

theorem contents_append (ps qs : List Phrase) : contents (ps ++ qs) = contents ps ++ contents qs :=
  List.filterMap_append

@[simp] theorem contents_nil : contents [] = [] := rfl

@[simp] theorem contents_keyword (s : String) (ps : List Phrase) :
    contents (.keyword s :: ps) = contents ps := rfl

@[simp] theorem contents_content (v : Value) (ps : List Phrase) :
    contents (.content v :: ps) = v :: contents ps := rfl

end Phrase

/-- **The value is written as the phrases**, in every renderer. -/
structure Value.WrittenAs (v : Value) (ps : List Phrase) : Prop where
  render_eq : ∀ {m : Type → Type} [Monad m] [LawfulMonad m] [MonadExceptOf RenderError m]
    {d : Dialect} {S : Scribe m} {render : Value → m String}, Renders d S render →
      render v = Phrase.write render ps

namespace Value.WrittenAs

variable {v w : Value} {before after ps : List Phrase}

/-- A content may be replaced by the phrases that it is written as. -/
theorem expand (h : v.WrittenAs (before ++ .content w :: after)) (hw : w.WrittenAs ps) :
    v.WrittenAs (before ++ ps ++ after) where
  render_eq hr := by
    rw [h.render_eq hr, Phrase.write_append, Phrase.write_append, Phrase.write_append, Phrase.write,
      hw.render_eq hr]
    simp only [bind_assoc, pure_bind, String.append_assoc]

end Value.WrittenAs

/-! ## Expressions with phrases -/

namespace Template

/-- Phrases without values are the text of their pieces. -/
theorem write_of_phrases?_nil {m : Type → Type} [Monad m] [LawfulMonad m]
    (render : Value → m String) {ps : List Piece} {fs : List Phrase}
    (h : phrases? [] ps [] = some fs) : Phrase.write render fs = pure (text ps) := by
  induction ps generalizing fs with
  | nil =>
    cases h
    rfl
  | cons p ps ih =>
    cases p with
    | text s =>
      obtain ⟨fs, hf, rfl⟩ := Option.map_eq_some_iff.mp h
      rw [Phrase.write, ih hf, pure_bind, text, text, List.map_cons, String.join_cons, Piece.source]
    | positional => cases h
    | named token => cases h

end Template

/-- **An expression is written as its phrases**, if it has some. Without values it is written as its
template, which the phrases make up then. -/
theorem Value.writtenAs_of_split {e : Expression} {fs : List Phrase}
    (hf : Template.phrases? e.named (Template.split e.template) e.positional = some fs) :
    (Value.expression e).WrittenAs fs where
  render_eq hr := by
    obtain ⟨template, positional, named⟩ := e
    rw [hr.expression]
    split_ifs with hempty
    · rw [Bool.and_eq_true, List.isEmpty_iff, List.isEmpty_iff] at hempty
      obtain ⟨rfl, rfl⟩ := hempty
      rw [Template.write_of_phrases?_nil _ hf, Template.text_split]
    · rw [fill, fillFrom_eq_write _ _ hf]

/-! ## Templates that take every value -/

/-- Pieces with a positional placeholder for every value have phrases, with those values. -/
theorem Template.phrases?_of_placeholders (named : List (String × Value)) {ps : List Piece}
    {vs : List Value}
    (h : ps.filter Piece.isPlaceholder = List.replicate vs.length .positional) :
    ∃ fs, Template.phrases? named ps vs = some fs ∧ Phrase.contents fs = vs := by
  induction ps generalizing vs with
  | nil =>
    cases vs with
    | nil => exact ⟨[], rfl, rfl⟩
    | cons v vs => cases h
  | cons p ps ih =>
    cases p with
    | text s =>
      obtain ⟨fs, hf, hc⟩ := ih h
      exact ⟨.keyword s :: fs, by rw [phrases?, hf, Option.map_some], hc⟩
    | positional =>
      cases vs with
      | nil => cases h
      | cons v vs =>
        obtain ⟨fs, hf, hc⟩ := ih (List.cons.inj h).2
        exact ⟨.content v :: fs, by rw [phrases?, hf, Option.map_some], congrArg (v :: ·) hc⟩
    | named token =>
      -- all placeholders are positional
      have hmem : .named token ∈ List.replicate vs.length Piece.positional :=
        h ▸ List.mem_cons_self
      cases List.eq_of_mem_replicate hmem

/-- **A template with a positional placeholder for every value** has phrases with those values. -/
theorem Value.writtenAs_of_placeholders {template : String} {vs : List Value}
    (h : Template.placeholders template = List.replicate vs.length .positional) :
    ∃ fs, (Value.expression (.withParameters template vs)).WrittenAs fs ∧
      Phrase.contents fs = vs := by
  obtain ⟨fs, hf, hc⟩ := Template.phrases?_of_placeholders [] h
  exact ⟨fs, writtenAs_of_split hf, hc⟩

/-! ## Errors -/

variable {α : Type}

/-- The error of the first value that fails. -/
def firstError? (f : Value → Except RenderError α) (vs : List Value) : Option RenderError :=
  vs.findSome? fun v => match f v with
    | .ok _ => none
    | .error e => some e

theorem firstError?_cons (f : Value → Except RenderError α) (v : Value) (vs : List Value) :
    firstError? f (v :: vs) =
      match f v with
      | .ok _ => firstError? f vs
      | .error e => some e := by
  rw [firstError?, List.findSome?_cons]
  cases f v <;> rfl

theorem firstError?_congr {β : Type} {f : Value → Except RenderError α}
    {g : Value → Except RenderError β} (h : ∀ v e, f v = .error e ↔ g v = .error e)
    (vs : List Value) : firstError? f vs = firstError? g vs := by
  have houtcome (v : Value) : (match f v with | .ok _ => none | .error e => some e) =
      match g v with | .ok _ => none | .error e => some e := by
    cases hf : f v with
    | error e => rw [(h v e).mp hf]
    | ok a =>
      cases hg : g v with
      | ok b => rfl
      | error e => cases hf.symm.trans ((h v e).mpr hg)
  rw [firstError?, firstError?, funext houtcome]

/-- Phrases fail with the error of the first content that fails. -/
theorem Phrase.write_eq_error_iff_firstError? {render : Value → Except RenderError String}
    {ps : List Phrase} {e : RenderError} :
    write render ps = .error e ↔ firstError? render (contents ps) = some e := by
  induction ps with
  | nil => exact ⟨fun h => (nomatch h), fun h => (nomatch h)⟩
  | cons p ps ih =>
    have hrest (s : String) :
        (do return s ++ (← write render ps)) = .error e ↔ write render ps = .error e := by
      cases write render ps with
      | error e' => exact Iff.rfl
      | ok t => exact ⟨fun h => (nomatch h), fun h => (nomatch h)⟩
    cases p with
    | keyword s => rw [write, hrest, ih, contents_keyword]
    | content v =>
      rw [contents_content, firstError?_cons, write]
      cases render v with
      | error e' =>
        change Except.error e' = Except.error e ↔ some e' = some e
        rw [Except.error.injEq, Option.some.injEq]
      | ok s => exact (hrest s).trans ih

/-- **Both renderers fail as the first of the values that fails.** -/
structure Value.FailsAs (v : Value) (vs : List Value) : Prop where
  compile : ∀ d e, v.compile d = .error e ↔ firstError? (Value.compile d) vs = some e
  prepare : ∀ d e, v.prepare d = .error e ↔ firstError? (Value.prepare d) vs = some e

/-- **What is written as phrases fails as their contents.** -/
theorem Value.WrittenAs.failsAs {v : Value} {ps : List Phrase} (h : v.WrittenAs ps) :
    v.FailsAs (Phrase.contents ps) where
  compile d e := by rw [h.render_eq (renders_compile d), Phrase.write_eq_error_iff_firstError?]
  prepare d e := by
    rw [prepare_eq_error_iff_marking, h.render_eq (renders_perform d marking),
      Phrase.write_eq_error_iff_firstError?,
      firstError?_congr fun _ _ => prepare_eq_error_iff_marking.symm]

end PortableSql
