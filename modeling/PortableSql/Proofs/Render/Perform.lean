import PortableSql.Proofs.Render.Walk
import PortableSql.Render.Compile
import PortableSql.Render.Prepare

/-!
# Renderers perform walks

A scribe is a way to write literals in a monad. Performing a walk with a scribe writes the text of
its draft and every literal as the scribe does, and then fails if the walk has stopped.

* `Scribe`, `Draft.perform`, `Walk.perform`.
* `Renders`: the equations of a renderer; `renders_perform`: performing walks meets them.
* **`Renders.eq_perform`**: a renderer with these equations performs the walk through each value.
-/

namespace PortableSql

variable {m : Type → Type} [Monad m] [MonadExceptOf RenderError m]

/-- **A way to write literals.** No literal is written as the empty text. -/
structure Scribe (m : Type → Type) [Monad m] [MonadExceptOf RenderError m] where
  literal : Literal → m String
  filled : ∀ (l : Literal) {α : Type} (f g : String → m α), (∀ s, s ≠ "" → f s = g s) →
    literal l >>= f = literal l >>= g
  throw_bind : ∀ {α β : Type} (e : RenderError) (f : α → m β), throw e >>= f = throw e

/-! ## Drafts -/

namespace Draft

/-- Writes a draft. -/
def perform (S : Scribe m) : Draft → m String
  | nil => pure ""
  | text s d => do return s ++ (← d.perform S)
  | literal l d => do
    let s ← S.literal l
    return s ++ (← d.perform S)

variable [LawfulMonad m] (S : Scribe m)

theorem perform_append (a b : Draft) : (a ++ b).perform S = do
    let s ← a.perform S
    return s ++ (← b.perform S) := by
  induction a with
  | nil => simp only [perform, nil_append, pure_bind, String.empty_append, bind_pure]
  | text s a ih =>
    simp only [perform, text_append, ih, bind_assoc, pure_bind, String.append_assoc]
  | literal l a ih =>
    simp only [perform, literal_append, ih, bind_assoc, pure_bind, String.append_assoc]

theorem perform_of_isBlank {d : Draft} (h : d.isBlank) : d.perform S = pure "" := by
  induction d with
  | nil => rfl
  | text s d ih =>
    simp only [isBlank, Bool.and_eq_true, decide_eq_true_eq] at h
    rw [perform, ih h.2, h.1, pure_bind, String.empty_append]
  | literal l d => simp [isBlank] at h

/-- Only blank drafts are written as the empty text, so what comes after a draft need only be known
on such texts. -/
theorem perform_bind_congr (d : Draft) {α : Type} (f g : String → m α)
    (h : ∀ s, (s = "" ↔ d.isBlank) → f s = g s) : d.perform S >>= f = d.perform S >>= g := by
  induction d generalizing f g with
  | nil => rw [perform, pure_bind, pure_bind, h "" (by simp [isBlank])]
  | text s d ih =>
    simp only [perform, bind_assoc, pure_bind]
    exact ih _ _ fun t ht => h _ (by simp [isBlank, String.append_eq_empty_iff, ht])
  | literal l d ih =>
    simp only [perform, bind_assoc, pure_bind]
    refine S.filled l _ _ fun s hs => ?_
    exact ih _ _ fun t ht => h _ (by simp [isBlank, hs])

/-- Dropping empty texts is dropping blank drafts. -/
theorem inOrder_filter (ds : List Draft) {α : Type} (f : List String → m α) :
    (do f ((← inOrder (ds.map (perform S))).filter (· ≠ ""))) =
      inOrder ((ds.filter fun d => !d.isBlank).map (perform S)) >>= f := by
  induction ds generalizing f with
  | nil => simp [inOrder]
  | cons d ds ih =>
    by_cases hd : d.isBlank
    · simp [inOrder, hd, perform_of_isBlank S hd, ← ih]
    · rw [List.filter_cons_of_pos (by simp [hd])]
      simp only [List.map_cons, inOrder, bind_assoc, pure_bind]
      refine perform_bind_congr S d _ _ fun s hs => ?_
      have hs' : s ≠ "" := fun e => hd (hs.mp e)
      simpa [hs'] using ih fun ss => f (s :: ss)

theorem inOrder_join (separator : String) (ds : List Draft) :
    (do return Text.join separator (← inOrder (ds.map (perform S)))) =
      (join separator ds).perform S := by
  induction ds with
  | nil => simp [inOrder, join, perform, Text.join]
  | cons d ds ih =>
    cases ds with
    | nil => simp [inOrder, join, Text.join]
    | cons e ds =>
      rw [join, perform_append]
      simp only [perform, ← ih, inOrder, List.map_cons, bind_assoc, pure_bind, Text.join,
        String.append_assoc]

end Draft

/-! ## Walks -/

namespace Walk

/-- Writes a walk, and fails where it stops. -/
def perform (S : Scribe m) (w : Walk) : m String := do
  let s ← w.draft.perform S
  match w.stop with
  | none => return s
  | some e => throw e

variable [LawfulMonad m] (S : Scribe m)

theorem perform_text (s : String) : (text s).perform S = pure s := by
  simp only [perform, text, Draft.perform, pure_bind, String.append_empty]

theorem perform_halt (e : RenderError) : (halt e).perform S = throw e := by
  simp only [perform, halt, Draft.perform, pure_bind]

theorem perform_andThen (w k : Walk) : (w.andThen k).perform S = do
    let s ← w.perform S
    return s ++ (← k.perform S) := by
  obtain ⟨d, _ | e⟩ := w
  · simp only [perform, andThen, Draft.perform_append, bind_assoc, pure_bind]
    cases k.stop with
    | none => simp only [pure_bind]
    | some e => simp only [S.throw_bind]
  · simp only [perform, andThen, bind_assoc, S.throw_bind]

theorem perform_fillFrom (template : String) (named : List (String × Walk)) (ps : List Piece)
    (used : Nat) (left : List Walk) :
    (fillFrom template named ps used left).perform S =
      PortableSql.fillFrom template (named.map fun p => (p.1, p.2.perform S)) ps used
        (left.map (perform S)) := by
  induction ps generalizing used left with
  | nil =>
    cases left with
    | nil => simp only [fillFrom, perform, Draft.perform, pure_bind, List.map_nil,
        PortableSql.fillFrom]
    | cons w left => simp only [fillFrom, perform_halt, List.map_cons, List.length_cons,
        List.length_map, PortableSql.fillFrom]
  | cons p ps ih =>
    cases p with
    | text s => rw [fillFrom, perform_andThen, perform_text, pure_bind, ih, PortableSql.fillFrom]
    | positional =>
      cases left with
      | nil => rw [fillFrom, perform_halt, List.map_nil, PortableSql.fillFrom]
      | cons w left => rw [fillFrom, perform_andThen, ih, List.map_cons, PortableSql.fillFrom]
    | named token =>
      rw [fillFrom, PortableSql.fillFrom, lookup_map_values]
      cases named.lookup token with
      | none => exact perform_halt S _
      | some w => simp only [perform_andThen, ih, Option.map_some]

theorem perform_each (ws : List Walk) : inOrder (ws.map (perform S)) = (do
    let ss ← inOrder ((each ws).1.map (Draft.perform S))
    match (each ws).2 with
    | none => return ss
    | some e => throw e) := by
  induction ws with
  | nil => simp only [List.map_nil, each, inOrder, pure_bind]
  | cons w ws ih =>
    obtain ⟨d, _ | e⟩ := w
    · simp only [List.map_cons, inOrder, each, perform, ih, bind_assoc, pure_bind]
      cases (each ws).2 with
      | none => simp only [pure_bind]
      | some e => simp only [S.throw_bind]
    · simp only [List.map_cons, List.map_nil, inOrder, each, perform, bind_assoc, pure_bind,
        S.throw_bind]

theorem perform_sequence (ws : List Walk) : (sequence ws).perform S =
    (do return Text.joinFilled ", " (← inOrder (ws.map (perform S)))) := by
  rw [perform_each]
  simp only [sequence, perform, Draft.joinFilled, ← Draft.inOrder_join, ← Draft.inOrder_filter,
    bind_assoc, pure_bind, Text.joinFilled]
  cases (each ws).2 with
  | none => simp only [pure_bind]
  | some e => simp only [S.throw_bind]

end Walk

/-! ## Renderers -/

/-- **The equations of a renderer** that writes literals as the scribe does. -/
structure Renders (d : Dialect) (S : Scribe m) (render : Value → m String) : Prop where
  literal : ∀ l, render (.literal l) = S.literal l
  identifier : ∀ n, render (.identifier n) = pure (d.identifierText n)
  column : ∀ n, render (.column n) = pure (d.columnText n)
  table : ∀ n, render (.table n) = pure (d.tableText n)
  sequence : ∀ items, render (.sequence items) =
    (do return Text.joinFilled ", " (← inOrder (items.map render)))
  expression : ∀ template positional named, render (.expression ⟨template, positional, named⟩) =
    if positional.isEmpty && named.isEmpty then pure template
    else fill template (positional.map render) (named.map fun p => (p.1, render p.2))

/-- Performing walks is a renderer. -/
theorem renders_perform [LawfulMonad m] (d : Dialect) (S : Scribe m) :
    Renders d S fun v => (v.walk d).perform S where
  literal l := by
    simp only [Value.walk, Walk.perform, Draft.perform, pure_bind, String.append_empty, bind_pure]
  identifier n := by rw [Value.walk, Walk.perform_text]
  column n := by rw [Value.walk, Walk.perform_text]
  table n := by rw [Value.walk, Walk.perform_text]
  sequence items := by
    rw [Value.walk_sequence, Walk.perform_sequence, List.map_map]
    rfl
  expression template positional named := by
    rw [Value.walk_expression]
    split
    · rw [Walk.perform_text]
    · rw [Walk.fill, Walk.perform_fillFrom, List.map_map, List.map_map]
      rfl

/-- **A renderer performs the walk through each value**, for it agrees on the parts of the value
with the renderer that does. -/
theorem Renders.eq_perform [LawfulMonad m] {d : Dialect} {S : Scribe m}
    {render : Value → m String} (h : Renders d S render) (v : Value) :
    render v = (v.walk d).perform S := by
  have hp := renders_perform d S
  induction v with
  | literal l => exact (h.literal l).trans (hp.literal l).symm
  | identifier n => exact (h.identifier n).trans (hp.identifier n).symm
  | column n => exact (h.column n).trans (hp.column n).symm
  | table n => exact (h.table n).trans (hp.table n).symm
  | sequence items ih =>
    rw [h.sequence, List.map_congr_left ih]
    exact (hp.sequence items).symm
  | expression template positional named ihp ihn =>
    have hn : (named.map fun p => (p.1, render p.2)) =
        named.map fun p => (p.1, (p.2.walk d).perform S) :=
      List.map_congr_left fun p hp => by rw [ihn p hp]
    rw [h.expression, List.map_congr_left ihp, hn]
    exact (hp.expression template positional named).symm

end PortableSql
