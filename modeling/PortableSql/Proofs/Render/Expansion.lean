import PortableSql.Proofs.Render.Replacement

/-!
# Nested expressions in place

A nested expression is written where its placeholder stands, so its template may stand there itself,
with its values among those of the expression around it.

* `Text.Fenced`: texts that no token runs out of or into.
* `Template.filledAs_fenced`: a template around such a text is filled part by part.
* `Value.writtenAs_fenced`, `Renders.exists_phrases_around`: its phrases, and those around a value.
* **`Value.replacedBy_expanded`**: a nested expression may be expanded in place.
-/

namespace PortableSql

/-- **No token runs across the ends of the text**: its first and its last character are neither
colons nor word characters. -/
def Text.Fenced (s : String) : Prop :=
  (∀ c ∈ s.toList.head?, isBreak c = true) ∧ ∀ c ∈ s.toList.getLast?, isBreak c = true

instance (s : String) : Decidable (Text.Fenced s) :=
  decidable_of_iff
    (s.toList.head?.all Text.isBreak = true ∧ s.toList.getLast?.all Text.isBreak = true) <| by
      simp only [Text.Fenced, Option.all_eq_true, Option.mem_def]

/-! ## Filling part by part -/

theorem Template.filledAs_fenced {t : String} (ht : Text.Fenced t) (hne : t ≠ "") (a b : String) :
    FilledAs (a ++ t ++ b) (split a ++ (split t ++ split b)) := by
  have hchars : t.toList ≠ [] := fun h => hne (String.toList_eq_nil_iff.mp h)
  have hafter : Seam t.toList b.toList := .inl ht.2
  have hbefore : Seam a.toList (t ++ b).toList := by
    rw [String.toList_append]
    exact Seam.append_right (.inr ht.1) hchars _
  intro m _ _ _ named used left
  rw [String.append_assoc, split_append hbefore, split_append hafter, fillFrom_glue]
  exact fillFrom_append_congr _ _ (fillFrom_glue _ _ _ _) _ _ _

/-- A question mark is such a text. -/
theorem Template.filledAs_mark (a b : String) :
    FilledAs (a ++ "?" ++ b) (split a ++ (.positional :: split b)) :=
  filledAs_fenced (by decide) (by decide) a b

/-! ## Expansion -/

section

variable {a b t : String} {xs ys vs : List Value} {named : List (String × Value)}
  {before own after : List Phrase}

theorem Expression.hasParameters_of_ne_nil {template : String} (hvs : vs ≠ []) :
    Expression.hasParameters ⟨template, xs ++ vs ++ ys, named⟩ = true := by
  simp [hasParameters, hvs]

/-- The phrases of a template with a fenced part are those of its parts. -/
theorem Value.writtenAs_fenced (ht : Text.Fenced t) (hne : t ≠ "") (hvs : vs ≠ [])
    (hbefore : Template.phrases? named (Template.split a) xs = some before)
    (hown : Template.phrases? named (Template.split t) vs = some own)
    (hafter : Template.phrases? named (Template.split b) ys = some after) :
    (Value.expression ⟨a ++ t ++ b, xs ++ vs ++ ys, named⟩).WrittenAs (before ++ own ++ after) := by
  refine writtenAs_of_filledAs (Expression.hasParameters_of_ne_nil hvs)
    (Template.filledAs_fenced ht hne a b) ?_
  rw [List.append_assoc, List.append_assoc]
  exact Template.phrases?_append hbefore (Template.phrases?_append hown hafter)

/-- Around a value that is taken at a question mark an expression that is written has phrases, and
the value is written. -/
theorem Renders.exists_phrases_around {d : Dialect} {S : Scribe (Except RenderError)}
    {render : Value → Except RenderError String} (hr : Renders d S render) {v : Value} {s : String}
    (ha : (Template.split a).count .positional = xs.length)
    (h : render (.expression ⟨a ++ "?" ++ b, xs ++ [v] ++ ys, named⟩) = .ok s) :
    ∃ before after, Template.phrases? named (Template.split a) xs = some before ∧
      Template.phrases? named (Template.split b) ys = some after ∧ ∃ t, render v = .ok t := by
  have hparameters : Expression.hasParameters ⟨a ++ "?" ++ b, xs ++ [v] ++ ys, named⟩ = true :=
    Expression.hasParameters_of_ne_nil (List.cons_ne_nil _ _)
  obtain ⟨fs, hf, hcontents⟩ := hr.exists_phrases hparameters (Template.filledAs_mark a b) h
  rw [List.append_assoc, List.singleton_append] at hf
  obtain ⟨before, rest, hbefore, hrest, rfl⟩ := Template.exists_of_phrases?_append ha hf
  obtain ⟨after, hafter, rfl⟩ := Option.map_eq_some_iff.mp hrest
  exact ⟨before, after, hbefore, hafter, hcontents v (by simp [Phrase.contents_append])⟩

/-- **A nested expression may be expanded in place.** An expression takes a nested one at a question
mark, with a value for every question mark before it. The nested one has positional values and a
template without tokens, and no token can run across the ends of that template. Wherever the whole
renders, it renders as the expression does in which the nested template stands for the question mark
and the nested values for the nested expression. -/
theorem Value.replacedBy_expanded {inside : List (String × Value)}
    (ha : (Template.split a).count .positional = xs.length) (hvs : vs ≠ [])
    (hnamed : ∀ token, .named token ∉ Template.split t) (ht : Text.Fenced t) :
    (Value.expression ⟨a ++ "?" ++ b, xs ++ [.expression ⟨t, vs, inside⟩] ++ ys, named⟩).ReplacedBy
      (.expression ⟨a ++ t ++ b, xs ++ vs ++ ys, named⟩) := by
  refine .of_writtenAs fun hr _ h => ?_
  obtain ⟨before, after, hbefore, hafter, s, hs⟩ := hr.exists_phrases_around ha h
  have hparameters : Expression.hasParameters ⟨t, vs, inside⟩ = true := by
    simp [Expression.hasParameters, hvs]
  obtain ⟨own, hown, -⟩ := hr.exists_phrases hparameters (Template.filledAs_split t) hs
  have hne : t ≠ "" := by
    rintro rfl
    cases vs with
    | nil => exact hvs rfl
    | cons v vs => cases hown
  refine ⟨before ++ own ++ after, ?_, ?_⟩
  · have hmark : Template.phrases? named (Template.split "?") [.expression ⟨t, vs, inside⟩] =
        some [.content (.expression ⟨t, vs, inside⟩)] := rfl
    have hwhole := writtenAs_fenced (by decide) (by decide) (List.cons_ne_nil _ _) hbefore hmark
      hafter
    rw [List.append_assoc before, List.singleton_append] at hwhole
    exact hwhole.expand (writtenAs_of_split hown)
  · -- without tokens the names around the template are as good as its own
    rw [Template.phrases?_congr fun token htoken => absurd htoken (hnamed token)] at hown
    exact writtenAs_fenced ht hne hvs hbefore hown hafter

end

/-- A colon before the nested template, and a token right after it whose name means something else
inside. -/
theorem Value.replacedBy_expanded_between_colons :
    let inner : Value := .expression ⟨"(? + ?)", [.column ⟨"x", .none⟩, .literal (.int 2)],
      [(":k", .literal .null)]⟩
    let named : List (String × Value) := [(":k", .literal (.int 1))]
    let nested : Value := .expression ⟨":k = ? OR f:" ++ "?" ++ ":k, ?", [.literal (.int 0)] ++
      [inner] ++ [.literal (.int 3)], named⟩
    let expanded : Value := .expression ⟨":k = ? OR f:(? + ?):k, ?", [.literal (.int 0),
      .column ⟨"x", .none⟩, .literal (.int 2), .literal (.int 3)], named⟩
    (Template.split ":k = ? OR f:").count .positional = 1 ∧
      (∀ token, .named token ∉ Template.split "(? + ?)") ∧ Text.Fenced "(? + ?)" ∧
      expanded.compile (.builtin .generic) = .ok "1 = 0 OR f:(\"x\" + 2)1, 3" ∧
      expanded.prepare (.builtin .generic) = nested.prepare (.builtin .generic) := by
  intro inner named nested expanded
  have hcount : (Template.split ":k = ? OR f:").count .positional = 1 := by decide
  have hnamed : ∀ token, .named token ∉ Template.split "(? + ?)" := by
    have hsplit : Template.split "(? + ?)" =
      [.text "(", .positional, .text " + ", .positional, .text ")"] := by decide
    simp [hsplit]
  have hfenced : Text.Fenced "(? + ?)" := by decide
  have h : nested.ReplacedBy expanded :=
    Value.replacedBy_expanded hcount (List.cons_ne_nil _ _) hnamed hfenced
  exact ⟨hcount, hnamed, hfenced, h.compile _ _ rfl, h.prepare _ _ rfl⟩

end PortableSql
