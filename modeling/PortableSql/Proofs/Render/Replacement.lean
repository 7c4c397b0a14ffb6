import PortableSql.Proofs.Render.Contents
import PortableSql.Proofs.Render.Pieces

/-!
# Values that may stand for others

An expression that is written has phrases, and whatever is written as these phrases may take its
place.

* `Template.FilledAs`: the pieces that a template is filled as, which need not be its own.
* `Phrase.exists_of_fillFrom`, `Renders.exists_phrases`: what is written has phrases, whose contents
  are written as well.
* `Value.writtenAs_of_filledAs`: an expression is written as the phrases of such pieces.
* **`Value.ReplacedBy`**, `Value.ReplacedBy.of_writtenAs`: a value that renders as another one does
  wherever that one renders.
-/

namespace PortableSql

/-! ## Pieces and phrases -/

namespace Template

/-- **The template is filled as the pieces are**, whatever stands for its placeholders. -/
def FilledAs (template : String) (ps : List Piece) : Prop :=
  ∀ {m : Type → Type} [Monad m] [LawfulMonad m] [MonadExceptOf RenderError m]
    (named : List (String × m String)) (used : Nat) (left : List (m String)),
    fillFrom template named (split template) used left = fillFrom template named ps used left

theorem filledAs_split (template : String) : FilledAs template (split template) :=
  fun _ _ _ => rfl

end Template

/-- **Pieces that are filled have phrases**, and all their contents are written. -/
theorem Phrase.exists_of_fillFrom {render : Value → Except RenderError String} {template : String}
    {named : List (String × Value)} {ps : List Piece} {used : Nat} {left : List Value} {s : String}
    (h : fillFrom template (named.map fun m => (m.1, render m.2)) ps used (left.map render) =
      .ok s) :
    ∃ fs, Template.phrases? named ps left = some fs ∧
      ∀ v ∈ Phrase.contents fs, ∃ t, render v = .ok t := by
  induction ps generalizing used left s with
  | nil =>
    cases left with
    | nil => exact ⟨[], rfl, fun _ hv => nomatch hv⟩
    | cons v left => cases h
  | cons p ps ih =>
    cases p with
    | text t =>
      rw [fillFrom] at h
      obtain ⟨u, hu, -⟩ := bind_eq_ok_iff.mp h
      obtain ⟨fs, hf, hc⟩ := ih hu
      exact ⟨.keyword t :: fs, by rw [Template.phrases?, hf, Option.map_some], hc⟩
    | positional =>
      cases left with
      | nil => cases h
      | cons v left =>
        rw [List.map_cons, fillFrom] at h
        obtain ⟨t, ht, h⟩ := bind_eq_ok_iff.mp h
        obtain ⟨u, hu, -⟩ := bind_eq_ok_iff.mp h
        obtain ⟨fs, hf, hc⟩ := ih hu
        exact ⟨.content v :: fs, by rw [Template.phrases?, hf, Option.map_some],
          List.forall_mem_cons.mpr ⟨⟨t, ht⟩, hc⟩⟩
    | named token =>
      rw [fillFrom, lookup_map_values] at h
      cases hv : named.lookup token with
      | none =>
        rw [hv] at h
        cases h
      | some v =>
        rw [hv] at h
        obtain ⟨t, ht, h⟩ := bind_eq_ok_iff.mp h
        obtain ⟨u, hu, -⟩ := bind_eq_ok_iff.mp h
        obtain ⟨fs, hf, hc⟩ := ih hu
        exact ⟨.content v :: fs, by rw [Template.phrases?, hv, hf]; rfl,
          List.forall_mem_cons.mpr ⟨⟨t, ht⟩, hc⟩⟩

section

variable {e : Expression} {ps : List Piece} {fs : List Phrase}

/-- An expression with values that is written has phrases. -/
theorem Renders.exists_phrases {d : Dialect} {S : Scribe (Except RenderError)}
    {render : Value → Except RenderError String} (hr : Renders d S render)
    (he : e.hasParameters = true) (hps : Template.FilledAs e.template ps) {s : String}
    (h : render (.expression e) = .ok s) :
    ∃ fs, Template.phrases? e.named ps e.positional = some fs ∧
      ∀ v ∈ Phrase.contents fs, ∃ t, render v = .ok t := by
  obtain ⟨template, positional, named⟩ := e
  rw [hr.expression, if_neg (Expression.not_isEmpty_of_hasParameters he), fill, hps] at h
  exact Phrase.exists_of_fillFrom h

theorem Value.writtenAs_of_filledAs (he : e.hasParameters = true)
    (hps : Template.FilledAs e.template ps)
    (hf : Template.phrases? e.named ps e.positional = some fs) :
    (Value.expression e).WrittenAs fs where
  render_eq hr := by
    obtain ⟨template, positional, named⟩ := e
    rw [hr.expression, if_neg (Expression.not_isEmpty_of_hasParameters he), fill, hps,
      fillFrom_eq_write _ _ hf]

end

/-! ## Replacement -/

/-- **Wherever the one value renders, the other one renders as it does.** -/
structure Value.ReplacedBy (v w : Value) : Prop where
  compile : ∀ d text, v.compile d = .ok text → w.compile d = .ok text
  prepare : ∀ d p, v.prepare d = .ok p → w.prepare d = .ok p

/-- **Values with the same phrases may replace each other.** It is enough that they have them
wherever a renderer that only fails or gives a text, be it compiling or marking, writes the first
one. -/
theorem Value.ReplacedBy.of_writtenAs {v w : Value}
    (h : ∀ {d : Dialect} {S : Scribe (Except RenderError)}
      {render : Value → Except RenderError String}, Renders d S render →
        ∀ {s}, render v = .ok s → ∃ fs, v.WrittenAs fs ∧ w.WrittenAs fs) :
    v.ReplacedBy w where
  compile d text htext := by
    obtain ⟨fs, hv, hw⟩ := h (renders_compile d) htext
    rwa [hw.render_eq (renders_compile d), ← hv.render_eq (renders_compile d)]
  prepare d p hp := by
    -- preparing succeeds where marking does, which keeps no state
    cases hm : (v.walk d).perform marking with
    | error e => cases hp.symm.trans (prepare_eq_error_iff_marking.mpr hm)
    | ok s =>
      obtain ⟨fs, hv, hw⟩ := h (renders_perform d marking) hm
      rw [Value.prepare, hv.render_eq (renders_binding d)] at hp
      rwa [Value.prepare, hw.render_eq (renders_binding d)]

end PortableSql
