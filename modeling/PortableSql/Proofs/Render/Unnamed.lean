import PortableSql.Proofs.Render.Replacement

/-!
# Named values by position

A named placeholder is a positional one whose value stands elsewhere: with a question mark for every
token, and the values in the order of their placeholders, an expression says the same.

* `Piece.unnamed`, `Template.unnamed`: question marks for tokens.
* `Template.taken`, **`Expression.unnamed`**: the values of placeholders in order, and the
  expression with these values.
* `Template.Canonical.unnamed`, `Template.split_unnamed`: the new template has the pieces of the old
  one, for no token reached across its ends and none starts in their place.
* `Template.phrases?_unnamed`: the phrases stay the same.
* **`Expression.replacedBy_unnamed`**: the two expressions are rendered alike.
-/

namespace PortableSql

/-- The piece with a question mark for a token. -/
def Piece.unnamed : Piece → Piece
  | .named _ => .positional
  | p => p

namespace Template

/-- The template with a question mark for every token. -/
def unnamed (template : String) : String := text ((split template).map Piece.unnamed)

/-- **The values of the placeholders among pieces**, in order: positional values are taken one after
the other, and a named one at every occurrence of its token. -/
def taken (named : List (String × Value)) : List Piece → List Value → List Value
  | [], _ => []
  | .text _ :: ps, left => taken named ps left
  | .positional :: ps, left => left.head?.toList ++ taken named ps left.tail
  | .named token :: ps, left => (named.lookup token).toList ++ taken named ps left

end Template

/-- **The expression with all its values by position.** -/
def Expression.unnamed (e : Expression) : Expression :=
  .withParameters (Template.unnamed e.template)
    (Template.taken e.named (Template.split e.template) e.positional)

namespace Template

/-! ## Pieces -/

theorem isPlaceholder_unnamed (p : Piece) : p.unnamed.isPlaceholder = p.isPlaceholder := by
  cases p <;> rfl

/-- **Question marks may stand where tokens stand.** -/
theorem Canonical.unnamed {ps : List Piece} (h : Canonical ps) :
    Canonical (ps.map Piece.unnamed) where
  apart := by
    rw [List.isChain_map]
    simp only [isPlaceholder_unnamed]
    exact h.apart
  stands before p after hps := by
    obtain ⟨before, rest, rfl, rfl, hrest⟩ := List.map_eq_append_iff.mp hps
    obtain ⟨q, after, rfl, rfl, rfl⟩ := List.map_eq_cons_iff.mp hrest
    have hq := h.stands before q after rfl
    cases q with
    | text s => exact hq
    | positional => trivial
    | named token => trivial

/-- **The new template has the pieces of the old one**, with question marks for tokens. -/
theorem split_unnamed (template : String) :
    split (unnamed template) = (split template).map Piece.unnamed := by
  rw [split_eq, unnamed, toList_text]
  exact (canonical_split template).unnamed.splitFrom_chars

/-! ## Phrases -/

/-- **The values of placeholders give the same phrases by position.** -/
theorem phrases?_unnamed {named : List (String × Value)} {ps : List Piece} {left : List Value}
    {fs : List Phrase} (h : phrases? named ps left = some fs) :
    phrases? [] (ps.map Piece.unnamed) (taken named ps left) = some fs := by
  induction ps generalizing left fs with
  | nil =>
    cases left with
    | nil => exact h
    | cons v left => cases h
  | cons p ps ih =>
    cases p with
    | text s =>
      obtain ⟨fs, hf, rfl⟩ := Option.map_eq_some_iff.mp h
      change (phrases? [] (ps.map Piece.unnamed) (taken named ps left)).map _ = _
      rw [ih hf, Option.map_some]
    | positional =>
      cases left with
      | nil => cases h
      | cons v left =>
        obtain ⟨fs, hf, rfl⟩ := Option.map_eq_some_iff.mp h
        change (phrases? [] (ps.map Piece.unnamed) (taken named ps left)).map _ = _
        rw [ih hf, Option.map_some]
    | named token =>
      obtain ⟨v, hv, h⟩ := Option.bind_eq_some_iff.mp h
      obtain ⟨fs, hf, rfl⟩ := Option.map_eq_some_iff.mp h
      rw [taken, hv]
      change (phrases? [] (ps.map Piece.unnamed) (taken named ps left)).map _ = _
      rw [ih hf, Option.map_some]

end Template

/-- **Named placeholders are positional ones spelled differently**: wherever an expression with
values renders, it renders as the expression with question marks for its tokens does, whose
positional values are the values of its placeholders in order. -/
theorem Expression.replacedBy_unnamed (e : Expression) (he : e.hasParameters = true) :
    (Value.expression e).ReplacedBy (.expression e.unnamed) := by
  refine .of_writtenAs fun hr _ hs => ?_
  obtain ⟨fs, hf, -⟩ := hr.exists_phrases he (Template.filledAs_split _) hs
  refine ⟨fs, Value.writtenAs_of_split hf, Value.writtenAs_of_split ?_⟩
  have hunnamed := Template.phrases?_unnamed hf
  rwa [← Template.split_unnamed] at hunnamed

/-- A token before a cast, twice, next to another one, and a value that no token takes. -/
theorem Expression.replacedBy_unnamed_repeated :
    let e : Expression := ⟨":a::int = ?:b:a", [.literal (.int 2)],
      [(":a", .literal (.int 1)), (":b", .sequence [.literal .null, .literal (.text "?")]),
        (":c", .literal (.float (1 / 0)))]⟩
    e.hasParameters = true ∧ Template.unnamed e.template = "?::int = ???" ∧
      (Value.expression e).prepare (.builtin .postgres) =
        (Value.expression e.unnamed).prepare (.builtin .postgres) ∧
      (Value.expression e.unnamed).compile (.builtin .postgres) = .ok "1::int = 2NULL, '?'1" := by
  intro e
  have h := Expression.replacedBy_unnamed e rfl
  refine ⟨rfl, by decide, ?_, h.compile _ _ rfl⟩
  exact (h.prepare _ ⟨"$1::int = $2$3, $4$5", [.int 1, .int 2, .null, .text "?", .int 1]⟩ rfl).symm

end PortableSql
