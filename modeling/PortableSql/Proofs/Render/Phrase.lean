import PortableSql.Proofs.Render.Outcome
import PortableSql.Proofs.Template.Seam

/-!
# Phrases

What an expression writes, told without placeholders: fixed texts, and values in their places.

* **`Phrase`**, `Phrase.write`: phrases are written from left to right.
* `Template.phrases?`: the phrases of pieces, with values for their placeholders;
  `Template.phrases?_append`, `Template.exists_of_phrases?_append`: part by part.
* `Template.Seams`, `Template.Seams.seam_join`, `fillFrom_split_join`: a template that is put
  together at seams is filled part by part.
* **`Renders.write_phrases`**: an expression is written as its phrases.
-/

namespace PortableSql

/-- **A fixed text, or a value in its place.** -/
inductive Phrase where
  | keyword (s : String)
  | content (v : Value)

variable {m : Type → Type} [Monad m]

namespace Phrase

/-- Writes phrases from left to right. -/
def write (render : Value → m String) : List Phrase → m String
  | [] => pure ""
  | .keyword s :: ps => do return s ++ (← write render ps)
  | .content v :: ps => do
    let s ← render v
    return s ++ (← write render ps)

variable [LawfulMonad m]

theorem write_append (render : Value → m String) (ps qs : List Phrase) :
    write render (ps ++ qs) = do
      let s ← write render ps
      return s ++ (← write render qs) := by
  induction ps with
  | nil => simp only [write, List.nil_append, pure_bind, String.empty_append, bind_pure]
  | cons p ps ih =>
    cases p with
    | keyword s =>
      simp only [write, List.cons_append, ih, bind_assoc, pure_bind, String.append_assoc]
    | content v =>
      simp only [write, List.cons_append, ih, bind_assoc, pure_bind, String.append_assoc]

theorem write_content (render : Value → m String) (v : Value) :
    write render [.content v] = render v := by
  simp only [write, pure_bind, String.append_empty, bind_pure]

end Phrase

/-! ## The phrases of a template -/

namespace Template

/-- The phrases of pieces when `left` are the positional values that remain. -/
def phrases? (named : List (String × Value)) : List Piece → List Value → Option (List Phrase)
  | [], [] => some []
  | [], _ :: _ => none
  | .text s :: ps, left => (phrases? named ps left).map (.keyword s :: ·)
  | .positional :: _, [] => none
  | .positional :: ps, v :: left => (phrases? named ps left).map (.content v :: ·)
  | .named token :: ps, left =>
    (named.lookup token).bind fun v => (phrases? named ps left).map (.content v :: ·)

theorem phrases?_append {named : List (String × Value)} {ps qs : List Piece}
    {left right : List Value} {fs gs : List Phrase} (hp : phrases? named ps left = some fs)
    (hq : phrases? named qs right = some gs) :
    phrases? named (ps ++ qs) (left ++ right) = some (fs ++ gs) := by
  induction ps generalizing left fs with
  | nil =>
    cases left with
    | nil =>
      cases hp
      exact hq
    | cons v left => cases hp
  | cons p ps ih =>
    cases p with
    | text s =>
      obtain ⟨fs', hf, rfl⟩ := Option.map_eq_some_iff.mp hp
      rw [List.cons_append, phrases?, ih hf]
      rfl
    | positional =>
      cases left with
      | nil => cases hp
      | cons v left =>
        obtain ⟨fs', hf, rfl⟩ := Option.map_eq_some_iff.mp hp
        rw [List.cons_append, List.cons_append, phrases?, ih hf]
        rfl
    | named token =>
      obtain ⟨v, hv, hp⟩ := Option.bind_eq_some_iff.mp hp
      obtain ⟨fs', hf, rfl⟩ := Option.map_eq_some_iff.mp hp
      rw [List.cons_append, phrases?, ih hf, hv]
      rfl

/-- Of named values only those of tokens that occur play a part. -/
theorem phrases?_congr {named others : List (String × Value)} {ps : List Piece}
    (h : ∀ token, .named token ∈ ps → named.lookup token = others.lookup token)
    (left : List Value) : phrases? named ps left = phrases? others ps left := by
  induction ps generalizing left with
  | nil => cases left <;> rfl
  | cons p ps ih =>
    have hrest := ih fun token htoken => h token (List.mem_cons_of_mem p htoken)
    cases p with
    | text s => rw [phrases?, hrest, phrases?]
    | positional =>
      cases left with
      | nil => rfl
      | cons v left => rw [phrases?, hrest, phrases?]
    | named token => rw [phrases?, h token List.mem_cons_self, hrest, phrases?]

/-- The phrases of two parts, of which the first one takes the first values. -/
theorem exists_of_phrases?_append {named : List (String × Value)} {ps qs : List Piece}
    {left right : List Value} (hcount : ps.count .positional = left.length) {fs : List Phrase}
    (h : phrases? named (ps ++ qs) (left ++ right) = some fs) :
    ∃ gs hs, phrases? named ps left = some gs ∧ phrases? named qs right = some hs ∧
      fs = gs ++ hs := by
  induction ps generalizing left fs with
  | nil =>
    obtain rfl : left = [] := List.length_eq_zero_iff.mp hcount.symm
    exact ⟨[], fs, rfl, h, rfl⟩
  | cons p ps ih =>
    cases p with
    | text s =>
      obtain ⟨fs, hf, rfl⟩ := Option.map_eq_some_iff.mp h
      obtain ⟨gs, hs, hg, hh, rfl⟩ := ih hcount hf
      exact ⟨.keyword s :: gs, hs, by rw [phrases?, hg, Option.map_some], hh, rfl⟩
    | positional =>
      rw [List.count_cons_self] at hcount
      cases left with
      | nil => cases hcount
      | cons v left =>
        obtain ⟨fs, hf, rfl⟩ := Option.map_eq_some_iff.mp h
        rw [List.length_cons, Nat.add_right_cancel_iff] at hcount
        obtain ⟨gs, hs, hg, hh, rfl⟩ := ih hcount hf
        exact ⟨.content v :: gs, hs, by rw [phrases?, hg, Option.map_some], hh, rfl⟩
    | named token =>
      obtain ⟨v, hv, h⟩ := Option.bind_eq_some_iff.mp h
      obtain ⟨fs, hf, rfl⟩ := Option.map_eq_some_iff.mp h
      obtain ⟨gs, hs, hg, hh, rfl⟩ := ih hcount hf
      exact ⟨.content v :: gs, hs, by rw [phrases?, hv, hg]; rfl, hh, rfl⟩

/-- Each text meets the next one at a seam. -/
def Seams (texts : List String) : Prop :=
  texts.IsChain fun s t => t ≠ "" ∧ Seam s.toList t.toList

theorem Seam.append_right {as bs : List Char} (h : Seam as bs) (hb : bs ≠ []) (cs : List Char) :
    Seam as (bs ++ cs) := by
  refine h.imp_right fun hc => ?_
  rwa [List.head?_append_of_ne_nil _ hb]

end Template

/-- Without a separator, texts are joined one by one. -/
theorem Text.join_empty_cons (s : String) (texts : List String) :
    join "" (s :: texts) = s ++ join "" texts := by
  cases texts with
  | nil => exact String.append_empty.symm
  | cons t texts => rw [join, String.append_empty]

/-- Texts are joined part by part. -/
theorem Text.join_empty_append (ss ts : List String) :
    join "" (ss ++ ts) = join "" ss ++ join "" ts := by
  induction ss with
  | nil => exact String.empty_append.symm
  | cons s ss ih => rw [List.cons_append, join_empty_cons, ih, join_empty_cons, String.append_assoc]

/-- A text meets all later ones at a seam. -/
theorem Template.Seams.seam_join {s t : String} {texts : List String}
    (h : Seams (s :: t :: texts)) : Seam s.toList (Text.join "" (t :: texts)).toList := by
  obtain ⟨⟨ht, hseam⟩, -⟩ := List.isChain_cons_cons.mp h
  rw [Text.join_empty_cons, String.toList_append]
  exact hseam.append_right (fun h => ht (String.toList_eq_nil_iff.mp h)) _

/-! ## Filling part by part -/

section

variable [MonadExceptOf RenderError m] (template : String) (named : List (String × m String))

theorem fillFrom_withText [LawfulMonad m] (cs : List Char) (ps : List Piece) (used : Nat)
    (left : List (m String)) :
    fillFrom template named (Template.withText cs ps) used left = do
      return String.ofList cs ++ (← fillFrom template named ps used left) := by
  by_cases hc : cs = []
  · simp [hc, Template.withText_nil]
  · rcases ps with _ | ⟨s | _ | _, ps⟩
    · simp only [Template.withText, if_neg hc, fillFrom]
    · simp only [Template.withText, if_neg hc, fillFrom, bind_assoc, pure_bind, String.append_assoc]
    · simp only [Template.withText, if_neg hc, fillFrom]
    · simp only [Template.withText, if_neg hc, fillFrom]

theorem fillFrom_append_congr {qs rs : List Piece}
    (h : ∀ used left, fillFrom template named qs used left = fillFrom template named rs used left)
    (ps : List Piece) (used : Nat) (left : List (m String)) :
    fillFrom template named (ps ++ qs) used left =
      fillFrom template named (ps ++ rs) used left := by
  induction ps generalizing used left with
  | nil => exact h used left
  | cons p ps ih =>
    cases p with
    | text s => simp only [List.cons_append, fillFrom, ih]
    | positional => cases left <;> simp only [List.cons_append, fillFrom, ih]
    | named token => simp only [List.cons_append, fillFrom, ih]

/-- Where two texts meet, it is the same whether they are one piece or two. -/
theorem fillFrom_glue [LawfulMonad m] (ps qs : List Piece) (used : Nat) (left : List (m String)) :
    fillFrom template named (Template.glue ps qs) used left =
      fillFrom template named (ps ++ qs) used left := by
  induction ps generalizing used left with
  | nil => rfl
  | cons p ps ih =>
    cases p with
    | text s =>
      rw [Template.glue, fillFrom_withText, ih, String.ofList_toList, List.cons_append, fillFrom]
    | positional => cases left <;> simp only [Template.glue, List.cons_append, fillFrom, ih]
    | named token => simp only [Template.glue, List.cons_append, fillFrom, ih]

/-- **A template that is put together at seams is filled part by part.** -/
theorem fillFrom_split_join [LawfulMonad m] {texts : List String} (h : Template.Seams texts)
    (used : Nat) (left : List (m String)) :
    fillFrom template named (Template.split (Text.join "" texts)) used left =
      fillFrom template named (texts.flatMap Template.split) used left := by
  induction texts generalizing used left with
  | nil => rfl
  | cons s texts ih =>
    cases texts with
    | nil => rw [Text.join, List.flatMap_singleton]
    | cons t texts =>
      have hrest : Template.Seams (t :: texts) := (List.isChain_cons_cons.mp h).2
      rw [Text.join_empty_cons, Template.split_append h.seam_join, fillFrom_glue,
        List.flatMap_cons]
      exact fillFrom_append_congr template named (ih hrest) _ used left

theorem fillFrom_eq_write {named : List (String × Value)} {ps : List Piece} {left : List Value}
    {fs : List Phrase} (render : Value → m String) (h : Template.phrases? named ps left = some fs)
    (used : Nat) :
    fillFrom template (named.map fun p => (p.1, render p.2)) ps used (left.map render) =
      Phrase.write render fs := by
  induction ps generalizing used left fs with
  | nil =>
    cases left with
    | nil =>
      cases h
      rfl
    | cons v left => cases h
  | cons p ps ih =>
    cases p with
    | text s =>
      obtain ⟨fs', hf, rfl⟩ := Option.map_eq_some_iff.mp h
      rw [fillFrom, ih hf, Phrase.write]
    | positional =>
      cases left with
      | nil => cases h
      | cons v left =>
        obtain ⟨fs', hf, rfl⟩ := Option.map_eq_some_iff.mp h
        rw [List.map_cons, fillFrom, ih hf, Phrase.write]
    | named token =>
      obtain ⟨v, hv, h⟩ := Option.bind_eq_some_iff.mp h
      obtain ⟨fs', hf, rfl⟩ := Option.map_eq_some_iff.mp h
      rw [fillFrom, lookup_map_values, hv, ih hf, Phrase.write]
      rfl

end

/-- **An expression is written as its phrases.** -/
theorem Renders.write_phrases [LawfulMonad m] [MonadExceptOf RenderError m] {d : Dialect}
    {S : Scribe m} {render : Value → m String} (h : Renders d S render) {texts : List String}
    {positional : List Value} {named : List (String × Value)} {fs : List Phrase}
    (hseams : Template.Seams texts) (hvalues : (positional.isEmpty && named.isEmpty) = false)
    (hf : Template.phrases? named (texts.flatMap Template.split) positional = some fs) :
    render (.expression ⟨Text.join "" texts, positional, named⟩) = Phrase.write render fs := by
  rw [h.expression, if_neg (by rw [hvalues]; exact Bool.false_ne_true), fill,
    fillFrom_split_join _ _ hseams, fillFrom_eq_write _ render hf]

end PortableSql
