import Mathlib.Data.List.Chain
import PortableSql.FromClause
import PortableSql.Proofs.Render.Phrase
import PortableSql.Statement.Clause

/-!
# Assembled statements

Clauses are put together as one template with named slots. As long as every slot is recognised,
and no two have one name, the statement is written clause by clause.

* `lookup_insertKey`, **`Clause.lookup_bindSlots`**: under its token every slot finds its content.
* `Clause.Shape`, **`Clause.Fits`**: clauses that fit together, which depends on their texts only.
* `Clause.phrases`, **`Renders.write_assemble`**: fitting clauses are written one after another.
* `Phrase.commas`, **`Renders.write_sequence`**: items that are never empty, with commas between.
* **`Renders.write_linked`**: values that are linked to a first one.
-/

namespace PortableSql

/-! ## Bound slots -/

theorem lookup_cons_eq_ite {β : Type} (k l : String) (w : β) (ps : List (String × β)) :
    ((l, w) :: ps).lookup k = if k = l then some w else ps.lookup k := by
  rw [List.lookup_cons]
  by_cases h : k = l
  · rw [if_pos h, h, beq_self_eq_true]
  · rw [if_neg h, beq_false_of_ne h]

theorem lookup_insertKey {β : Type} (key : String) (v : β) (ps : List (String × β)) (k : String) :
    (insertKey key v ps).lookup k = if k = key then some v else ps.lookup k := by
  induction ps with
  | nil => rw [insertKey, lookup_cons_eq_ite]
  | cons p ps ih =>
    obtain ⟨l, w⟩ := p
    rw [insertKey]
    by_cases hlt : key < l
    · rw [if_pos hlt, lookup_cons_eq_ite]
    rw [if_neg hlt]
    by_cases hl : key = l
    · simp only [hl, if_true, lookup_cons_eq_ite]
      split_ifs <;> rfl
    · rw [if_neg hl, lookup_cons_eq_ite, lookup_cons_eq_ite, ih]
      by_cases hk : k = key
      · rw [if_neg fun h => hl (hk.symm.trans h)]
        simp only [if_pos hk]
      · simp only [if_neg hk]

namespace Clause

/-- The token of a slot. -/
def token? : Clause → Option String
  | .text _ => none
  | .slot _ name _ => some (Expression.token name)

theorem lookup_bindSlot (e : Expression) (c : Clause) {token : String} (h : c.token? ≠ some token) :
    (bindSlot e c).named.lookup token = e.named.lookup token := by
  cases c with
  | text s => rfl
  | slot lead name content =>
    have hne : token ≠ Expression.token name := fun ht => h (congrArg some ht.symm)
    exact (lookup_insertKey _ _ _ _).trans (if_neg hne)

theorem lookup_foldl_bindSlot {clauses : List Clause} {token : String}
    (h : token ∉ clauses.filterMap token?) (e : Expression) :
    (clauses.foldl bindSlot e).named.lookup token = e.named.lookup token := by
  induction clauses generalizing e with
  | nil => rfl
  | cons c clauses ih =>
    have hc : c.token? ≠ some token := fun hc =>
      h (List.mem_filterMap.mpr ⟨c, List.mem_cons_self, hc⟩)
    have hrest : token ∉ clauses.filterMap token? := fun hmem => by
      obtain ⟨b, hb, ht⟩ := List.mem_filterMap.mp hmem
      exact h (List.mem_filterMap.mpr ⟨b, List.mem_cons_of_mem c hb, ht⟩)
    rw [List.foldl_cons, ih hrest, lookup_bindSlot e c hc]

/-- **Under its token every slot finds its content**, if no other slot has the token. -/
theorem lookup_bindSlots {clauses : List Clause} (hnodup : (clauses.filterMap token?).Nodup)
    {lead name : String} {content : Value} (h : .slot lead name content ∈ clauses)
    (e : Expression) :
    (clauses.foldl bindSlot e).named.lookup (Expression.token name) = some content := by
  induction clauses generalizing e with
  | nil => cases h
  | cons c clauses ih =>
    rw [List.foldl_cons]
    rcases List.mem_cons.mp h with rfl | h
    · have hrest := (List.nodup_cons.mp hnodup).1
      rw [lookup_foldl_bindSlot hrest]
      exact (lookup_insertKey _ _ _ _).trans (if_pos rfl)
    · refine ih ?_ h _
      rw [List.filterMap_cons] at hnodup
      cases hc : c.token? with
      | none => rwa [hc] at hnodup
      | some token =>
        rw [hc] at hnodup
        exact (List.nodup_cons.mp hnodup).2

theorem foldl_bindSlot_eq (clauses : List Clause) (e : Expression) :
    (clauses.foldl bindSlot e).template = e.template ∧
      (clauses.foldl bindSlot e).positional = e.positional := by
  induction clauses generalizing e with
  | nil => exact ⟨rfl, rfl⟩
  | cons c clauses ih =>
    obtain ⟨ht, hp⟩ := ih (bindSlot e c)
    rw [List.foldl_cons, ht, hp]
    cases c <;> exact ⟨rfl, rfl⟩

/-! ## Clauses that fit together -/

/-- What of a clause stands in the template: its text, or the text and the name of its slot. -/
abbrev Shape := String × Option String

/-- The shape of a clause. -/
def shape : Clause → Shape
  | .text s => (s, none)
  | .slot lead name _ => (lead, some name)

namespace Shape

/-- The text of a shape in the template. -/
def sql : Shape → String
  | (s, none) => s
  | (lead, some name) => lead ++ ":" ++ name

/-- The token of a shape with a slot. -/
def token? (s : Shape) : Option String := s.2.map Expression.token

/-- The pieces that are meant: a text, and a token if there is a slot. -/
def pieces : Shape → List Piece
  | (s, none) => [.text s]
  | (lead, some name) =>
    (if lead = "" then [] else [.text lead]) ++ [.named (Expression.token name)]

/-- A shape may stand before another one. -/
def Meets (s t : Shape) : Prop := t.sql ≠ "" ∧ Template.Seam s.sql.toList t.sql.toList

instance (s t : Shape) : Decidable (Meets s t) := by
  unfold Meets
  infer_instance

end Shape

/-- **Shapes that fit together**: each is split as it is meant, neighbours meet at seams, and no two
slots have one token. -/
structure Fits (shapes : List Shape) : Prop where
  pieces : ∀ s ∈ shapes, Template.split s.sql = s.pieces
  seams : shapes.IsChain Shape.Meets
  nodup : (shapes.filterMap Shape.token?).Nodup

instance (shapes : List Shape) : Decidable (Fits shapes) :=
  decidable_of_iff ((∀ s ∈ shapes, Template.split s.sql = s.pieces) ∧ shapes.IsChain Shape.Meets ∧
    (shapes.filterMap Shape.token?).Nodup) ⟨fun ⟨h₁, h₂, h₃⟩ => ⟨h₁, h₂, h₃⟩, fun h =>
      ⟨h.pieces, h.seams, h.nodup⟩⟩

/-- Some of the shapes fit together, if each of them may stand before every later one. -/
theorem Fits.of_sublist {shapes all : List Shape} (h : shapes.Sublist all)
    (hpieces : ∀ s ∈ all, Template.split s.sql = s.pieces) (hmeets : all.Pairwise Shape.Meets)
    (hnodup : (all.filterMap Shape.token?).Nodup) : Fits shapes where
  pieces s hs := hpieces s (h.subset hs)
  seams := (hmeets.sublist h).isChain
  nodup := hnodup.sublist (h.filterMap _)

theorem shape_optional (lead name : String) (v : Option Value) :
    ((optional lead name v).map shape).Sublist [(lead, some name)] := by
  cases v with
  | none => exact List.nil_sublist _
  | some v => exact List.Sublist.refl _

theorem shape_list (lead name : String) (items : List Value) :
    ((list lead name items).map shape).Sublist [(lead, some name)] := by
  cases items with
  | nil => exact List.nil_sublist _
  | cons v items => exact List.Sublist.refl _

theorem shape_conditions (lead name : String) (c : Option Conditions) :
    ((conditions lead name c).map shape).Sublist [(lead, some name)] := by
  cases c with
  | none => exact List.nil_sublist _
  | some c =>
    rw [conditions]
    split_ifs
    · exact List.nil_sublist _
    · exact List.Sublist.refl _

/-! ## Writing clauses -/

/-- **The phrases of a clause.** -/
def phrases : Clause → List Phrase
  | .text s => [.keyword s]
  | .slot lead _ content => (if lead = "" then [] else [.keyword lead]) ++ [.content content]

theorem phrases?_clause {c : Clause} {named : List (String × Value)}
    (hpieces : Template.split c.shape.sql = c.shape.pieces)
    (hnamed : ∀ lead name content, c = .slot lead name content →
      named.lookup (Expression.token name) = some content) :
    Template.phrases? named (Template.split c.sql) [] = some c.phrases := by
  cases c with
  | text s =>
    rw [shape, Shape.pieces, Shape.sql] at hpieces
    rw [sql, hpieces]
    rfl
  | slot lead name content =>
    have hv := hnamed lead name content rfl
    rw [shape, Shape.pieces, Shape.sql] at hpieces
    rw [sql, hpieces, phrases]
    split_ifs <;> simp [Template.phrases?, hv]

theorem phrases?_clauses {clauses : List Clause} {named : List (String × Value)}
    (h : ∀ c ∈ clauses, Template.phrases? named (Template.split c.sql) [] = some c.phrases) :
    Template.phrases? named ((clauses.map sql).flatMap Template.split) [] =
      some (clauses.flatMap phrases) := by
  induction clauses with
  | nil => rfl
  | cons c clauses ih =>
    obtain ⟨hc, hrest⟩ := List.forall_mem_cons.mp h
    exact Template.phrases?_append hc (ih hrest)

theorem sql_shape (c : Clause) : c.shape.sql = c.sql := by
  cases c <;> rfl

theorem token?_shape (c : Clause) : c.shape.token? = c.token? := by
  cases c <;> rfl

end Clause

variable {m : Type → Type} [Monad m] [LawfulMonad m]

/-- Without slots a statement is its text. -/
theorem Clause.write_texts (render : Value → m String) {clauses : List Clause}
    (h : ∀ c ∈ clauses, c.token? = none) :
    Phrase.write render (clauses.flatMap phrases) = pure (Text.join "" (clauses.map sql)) := by
  induction clauses with
  | nil => rfl
  | cons c clauses ih =>
    obtain ⟨hc, hrest⟩ := List.forall_mem_cons.mp h
    cases c with
    | slot lead name content => cases hc
    | text s =>
      rw [List.flatMap_cons, phrases, List.singleton_append, Phrase.write, ih hrest, pure_bind,
        List.map_cons, sql, Text.join_empty_cons]

variable [MonadExceptOf RenderError m] {d : Dialect} {S : Scribe m} {render : Value → m String}

/-- **A statement of fitting clauses is written clause by clause.** -/
theorem Renders.write_assemble (h : Renders d S render) {clauses : List Clause}
    (hfits : Clause.Fits (clauses.map Clause.shape)) :
    render (.expression (Clause.assemble clauses)) =
      Phrase.write render (clauses.flatMap Clause.phrases) := by
  have hnodup : (clauses.filterMap Clause.token?).Nodup := by
    have hn := hfits.nodup
    rwa [List.filterMap_map, List.filterMap_congr fun c _ => c.token?_shape] at hn
  have hseams : Template.Seams (clauses.map Clause.sql) := by
    have hs := hfits.seams
    rw [List.isChain_map] at hs
    rw [Template.Seams, List.isChain_map]
    simpa only [Clause.Shape.Meets, Clause.sql_shape] using hs
  have hphrases : Template.phrases? (Clause.assemble clauses).named
      ((clauses.map Clause.sql).flatMap Template.split) [] =
        some (clauses.flatMap Clause.phrases) := by
    refine Clause.phrases?_clauses fun c hc => ?_
    refine Clause.phrases?_clause (hfits.pieces _ (List.mem_map_of_mem hc)) ?_
    rintro lead name content rfl
    exact Clause.lookup_bindSlots hnodup hc _
  obtain ⟨htemplate, hpositional⟩ :=
    Clause.foldl_bindSlot_eq clauses (.raw (Text.join "" (clauses.map Clause.sql)))
  rw [← Clause.assemble] at htemplate hpositional
  rcases hcs : Clause.assemble clauses with ⟨template, positional, named⟩
  rw [hcs] at htemplate hpositional hphrases
  obtain rfl : template = Text.join "" (clauses.map Clause.sql) := htemplate
  obtain rfl : positional = [] := hpositional
  cases named with
  | cons p named => exact h.write_phrases hseams rfl hphrases
  | nil =>
    have htexts : ∀ c ∈ clauses, c.token? = none := fun c hc => by
      cases c with
      | text s => rfl
      | slot lead name content =>
        have hlookup := Clause.lookup_bindSlots hnodup hc
          (.raw (Text.join "" (clauses.map Clause.sql)))
        rw [← Clause.assemble, hcs] at hlookup
        cases hlookup
    rw [h.expression, if_pos (by rfl), Clause.write_texts render htexts]

/-! ## Lists -/

/-- Phrases with commas between them. -/
def Phrase.commas : List (List Phrase) → List Phrase
  | [] => []
  | [ps] => ps
  | ps :: qs :: rest => ps ++ .keyword ", " :: commas (qs :: rest)

omit [MonadExceptOf RenderError m] in
theorem Phrase.write_commas (render : Value → m String) (lists : List (List Phrase)) :
    write render (commas lists) =
      (do return Text.join ", " (← inOrder (lists.map (write render)))) := by
  induction lists with
  | nil => simp only [commas, write, List.map_nil, inOrder, pure_bind, Text.join]
  | cons ps lists ih =>
    cases lists with
    | nil => simp [commas, inOrder, Text.join]
    | cons qs lists =>
      rw [commas, write_append]
      simp only [write, ih, inOrder, List.map_cons, bind_assoc, pure_bind, Text.join,
        String.append_assoc]

/-- What comes after a text need only be known where the text is not empty. -/
def NeverEmpty (x : m String) : Prop :=
  ∀ {α : Type} (f g : String → m α), (∀ s, s ≠ "" → f s = g s) → x >>= f = x >>= g

omit [MonadExceptOf RenderError m] in
theorem Phrase.neverEmpty_write (render : Value → m String) {ps : List Phrase} {s : String}
    (h : .keyword s ∈ ps) (hs : s ≠ "") : NeverEmpty (write render ps) := by
  intro α f g hfg
  -- along the phrases, as far as the text that is not empty
  induction ps generalizing f g with
  | nil => cases h
  | cons p ps ih =>
    have hrest (t : String) (hps : .keyword s ∈ ps) :
        (write render ps >>= fun u => f (t ++ u)) = write render ps >>= fun u => g (t ++ u) :=
      ih hps _ _ fun u hu => hfg _ fun he => hu (String.append_eq_empty_iff.mp he).2
    cases p with
    | keyword t =>
      simp only [write, bind_assoc, pure_bind]
      rcases List.mem_cons.mp h with ht | hps
      · cases ht
        refine bind_congr fun u => hfg _ fun he => hs (String.append_eq_empty_iff.mp he).1
      · exact hrest t hps
    | content v =>
      simp only [write, bind_assoc, pure_bind]
      rcases List.mem_cons.mp h with ht | hps
      · cases ht
      · exact bind_congr fun t => hrest t hps

omit [MonadExceptOf RenderError m] in
theorem inOrder_filter_of_neverEmpty {actions : List (m String)}
    (h : ∀ x ∈ actions, NeverEmpty x) {α : Type} (f : List String → m α) :
    (do f ((← inOrder actions).filter (· ≠ ""))) = inOrder actions >>= f := by
  induction actions generalizing f with
  | nil => simp [inOrder]
  | cons x actions ih =>
    obtain ⟨hx, hrest⟩ := List.forall_mem_cons.mp h
    simp only [inOrder, bind_assoc, pure_bind]
    refine hx _ _ fun s hs => ?_
    simpa [hs] using ih hrest fun ss => f (s :: ss)

/-- **Items that are never empty are written with commas between them.** -/
theorem Renders.write_sequence (h : Renders d S render) {α : Type} {value : α → Value}
    {phrases : α → List Phrase} (hvalue : ∀ x, render (value x) = Phrase.write render (phrases x))
    (hfilled : ∀ x, ∃ s, s ≠ "" ∧ .keyword s ∈ phrases x) (xs : List α) :
    render (.sequence (xs.map value)) = Phrase.write render (Phrase.commas (xs.map phrases)) := by
  have hactions : (xs.map value).map render = (xs.map phrases).map (Phrase.write render) := by
    rw [List.map_map, List.map_map]
    exact List.map_congr_left fun x _ => hvalue x
  have hnever : ∀ x ∈ (xs.map phrases).map (Phrase.write render), NeverEmpty x := by
    rw [List.map_map]
    rintro _ hx
    obtain ⟨x, -, rfl⟩ := List.mem_map.mp hx
    obtain ⟨s, hs, hmem⟩ := hfilled x
    exact Phrase.neverEmpty_write render hmem hs
  rw [h.sequence, hactions, Phrase.write_commas]
  exact inOrder_filter_of_neverEmpty hnever fun ss => pure (Text.join ", " ss)

/-! ## Links -/

theorem Template.seams_of_isBreak (s : String) {texts : List String}
    (h : ∀ t ∈ texts, ∃ c ∈ t.toList.head?, Text.isBreak c = true) : Seams (s :: texts) := by
  induction texts generalizing s with
  | nil => exact List.isChain_singleton s
  | cons t texts ih =>
    obtain ⟨⟨c, hc, hbreak⟩, hrest⟩ := List.forall_mem_cons.mp h
    refine List.isChain_cons_cons.mpr ⟨⟨?_, .inr fun b hb => ?_⟩, ih t hrest⟩
    · rintro rfl
      cases hc
    · cases Option.mem_unique hb hc
      exact hbreak

/-- **Values linked to a first one are written after it**, if every link opens with a break. -/
theorem Renders.write_linked (h : Renders d S render) {α : Type} (link : α → String × Value)
    {phrases : α → List Phrase}
    (hlink : ∀ x, Template.phrases? [] (Template.split (link x).1) [(link x).2] = some (phrases x))
    (hbreak : ∀ x, ∃ c ∈ (link x).1.toList.head?, Text.isBreak c = true) (first : Value)
    (xs : List α) :
    render (.expression (.linked first (xs.map link))) =
      Phrase.write render (.content first :: xs.flatMap phrases) := by
  have hrest : Template.phrases? [] (((xs.map link).map (·.1)).flatMap Template.split)
      ((xs.map link).map (·.2)) = some (xs.flatMap phrases) := by
    induction xs with
    | nil => rfl
    | cons x xs ih => exact Template.phrases?_append (hlink x) ih
  have hseams : Template.Seams ("?" :: (xs.map link).map (·.1)) := by
    refine Template.seams_of_isBreak "?" ?_
    rw [List.map_map]
    intro t ht
    obtain ⟨x, -, rfl⟩ := List.mem_map.mp ht
    exact hbreak x
  have hjoin : "?" ++ Text.join "" ((xs.map link).map (·.1)) =
      Text.join "" ("?" :: (xs.map link).map (·.1)) := by
    cases xs <;> rfl
  rw [Expression.linked, Expression.withParameters, hjoin]
  have hfirst : Template.phrases? [] [.positional] [first] = some [.content first] := rfl
  exact h.write_phrases hseams rfl (Template.phrases?_append hfirst hrest)

end PortableSql
