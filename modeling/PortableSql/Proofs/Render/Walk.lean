import PortableSql.Proofs.Render.Draft
import PortableSql.Proofs.Value.Induction
import PortableSql.Dialect
import PortableSql.Render.Error
import PortableSql.Template

/-!
# The walk through a value

A walk goes through a value from left to right, down to the literals. It writes a draft and stops
at the first placeholder without a value or value without a placeholder. What a literal holds plays
no part in it.

* `Walk`, `Walk.andThen`, `Walk.fillFrom`, `Walk.sequence`; **`Value.walk`**.
* `Value.walk_sequence`, `Value.walk_expression`: the walk in terms of the walks of the parts.
* `Value.reached`, **`Value.meets_reached`**: the literals that a walk to the end meets.
-/

namespace PortableSql

/-- What has been written, and the error that ended the walk, if one did. -/
structure Walk where
  draft : Draft
  stop : Option RenderError

namespace Walk

/-- The walk that stops at once. -/
def halt (e : RenderError) : Walk := ⟨.nil, some e⟩

/-- The walk that writes a text. -/
def text (s : String) : Walk := ⟨.text s .nil, none⟩

/-- A walk, and another one after it unless it has stopped. -/
def andThen (w k : Walk) : Walk :=
  match w.stop with
  | none => ⟨w.draft ++ k.draft, k.stop⟩
  | some _ => w

/-- The walk through pieces when `used` positional values have been taken and `left` remain. -/
def fillFrom (template : String) (named : List (String × Walk)) :
    List Piece → Nat → List Walk → Walk
  | [], _, [] => ⟨.nil, none⟩
  | [], used, left => halt (.unusedPositional used (used + left.length) template)
  | .text s :: ps, used, left => (text s).andThen (fillFrom template named ps used left)
  | .positional :: _, used, [] => halt (.missingPositional used template)
  | .positional :: ps, used, w :: left => w.andThen (fillFrom template named ps (used + 1) left)
  | .named token :: ps, used, left =>
    match named.lookup token with
    | none => halt (.missingNamed token template)
    | some w => w.andThen (fillFrom template named ps used left)

/-- The drafts of walks in order, up to the first that stops. -/
def each : List Walk → List Draft × Option RenderError
  | [] => ([], none)
  | w :: ws =>
    match w.stop with
    | none => (w.draft :: (each ws).1, (each ws).2)
    | some e => ([w.draft], some e)

/-- The walk through the items of a sequence. -/
def sequence (ws : List Walk) : Walk := ⟨.joinFilled ", " (each ws).1, (each ws).2⟩

/-- The walk through a template with values. -/
def fill (template : String) (positional : List Walk) (named : List (String × Walk)) : Walk :=
  fillFrom template named (Template.split template) 0 positional

end Walk

mutual

/-- **The walk through a value.** -/
def Value.walk (d : Dialect) : Value → Walk
  | .literal l => ⟨.literal l .nil, none⟩
  | .identifier n => .text (d.identifierText n)
  | .column n => .text (d.columnText n)
  | .table n => .text (d.tableText n)
  | .sequence items => .sequence (walkAll d items)
  | .expression e => e.walk d

/-- The walk through an expression. -/
def Expression.walk (d : Dialect) : Expression → Walk
  | ⟨template, positional, named⟩ =>
    if positional.isEmpty && named.isEmpty then .text template
    else .fill template (walkAll d positional) (walkNamed d named)

/-- The walk through each value. -/
def walkAll (d : Dialect) : List Value → List Walk
  | [] => []
  | v :: vs => v.walk d :: walkAll d vs

/-- The walk through each named value, under its token. -/
def walkNamed (d : Dialect) : List (String × Value) → List (String × Walk)
  | [] => []
  | (token, v) :: vs => (token, v.walk d) :: walkNamed d vs

end

theorem walkAll_eq_map (d : Dialect) (vs : List Value) : walkAll d vs = vs.map (Value.walk d) :=
  eq_map_of_cons rfl (fun _ _ => rfl) vs

theorem walkNamed_eq_map (d : Dialect) (ps : List (String × Value)) :
    walkNamed d ps = ps.map fun p => (p.1, p.2.walk d) :=
  eq_map_of_cons rfl (fun _ _ => rfl) ps

theorem Value.walk_sequence (d : Dialect) (items : List Value) :
    (Value.sequence items).walk d = .sequence (items.map (Value.walk d)) := by
  rw [Value.walk, walkAll_eq_map]

theorem Value.walk_expression (d : Dialect) (template : String) (positional : List Value)
    (named : List (String × Value)) :
    (Value.expression ⟨template, positional, named⟩).walk d =
      if positional.isEmpty && named.isEmpty then .text template
      else .fill template (positional.map (Value.walk d))
        (named.map fun p => (p.1, p.2.walk d)) := by
  rw [Value.walk, Expression.walk, walkAll_eq_map, walkNamed_eq_map]

/-! ## The literals of a walk to the end -/

/-- The literals met in pieces, where a placeholder stands for a list of literals: positional ones
are taken in order, a named one at every occurrence of its token. -/
def Template.reachedFrom (named : List (String × List Literal)) :
    List Piece → List (List Literal) → List Literal
  | [], _ => []
  | .text _ :: ps, left => reachedFrom named ps left
  | .positional :: ps, left => left.headD [] ++ reachedFrom named ps left.tail
  | .named token :: ps, left => (named.lookup token).getD [] ++ reachedFrom named ps left

mutual

/-- **The literals of a value in the order in which its templates reach them.** -/
def Value.reached : Value → List Literal
  | .literal l => [l]
  | .identifier _ | .column _ | .table _ => []
  | .sequence items => (reachedAll items).flatten
  | .expression e => e.reached

/-- The literals that an expression reaches. -/
def Expression.reached : Expression → List Literal
  | ⟨template, positional, named⟩ =>
    if positional.isEmpty && named.isEmpty then []
    else Template.reachedFrom (reachedNamed named) (Template.split template) (reachedAll positional)

/-- The literals of each value. -/
def reachedAll : List Value → List (List Literal)
  | [] => []
  | v :: vs => v.reached :: reachedAll vs

/-- The literals of each named value, under its token. -/
def reachedNamed : List (String × Value) → List (String × List Literal)
  | [] => []
  | (token, v) :: vs => (token, v.reached) :: reachedNamed vs

end

theorem reachedAll_eq_map (vs : List Value) : reachedAll vs = vs.map Value.reached :=
  eq_map_of_cons rfl (fun _ _ => rfl) vs

theorem reachedNamed_eq_map (ps : List (String × Value)) :
    reachedNamed ps = ps.map fun p => (p.1, p.2.reached) :=
  eq_map_of_cons rfl (fun _ _ => rfl) ps

namespace Walk

/-- A walk to the end meets the literals `ls`. -/
def Meets (w : Walk) (ls : List Literal) : Prop := w.stop = none → w.draft.literals = ls

theorem stop_andThen {w k : Walk} :
    (w.andThen k).stop = none ↔ w.stop = none ∧ k.stop = none := by
  obtain ⟨d, _ | e⟩ := w <;> simp [andThen]

theorem Meets.andThen {w k : Walk} {ls ms : List Literal} (hw : w.Meets ls) (hk : k.Meets ms) :
    (w.andThen k).Meets (ls ++ ms) := by
  intro h
  obtain ⟨h₁, h₂⟩ := stop_andThen.mp h
  rw [Walk.andThen, h₁]
  simp only [Draft.literals_append, hw h₁, hk h₂]

variable {f : Value → Walk} {g : Value → List Literal}

theorem meets_fillFrom (template : String) {named : List (String × Value)}
    (hn : ∀ p ∈ named, (f p.2).Meets (g p.2)) (ps : List Piece) (used : Nat) (left : List Value)
    (hl : ∀ v ∈ left, (f v).Meets (g v)) :
    (fillFrom template (named.map fun p => (p.1, f p.2)) ps used (left.map f)).Meets
      (Template.reachedFrom (named.map fun p => (p.1, g p.2)) ps (left.map g)) := by
  induction ps generalizing used left with
  | nil =>
    cases left with
    | nil => exact fun _ => rfl
    | cons v left => exact fun h => nomatch h
  | cons p ps ih =>
    cases p with
    | text s =>
      have ht : (text s).Meets [] := fun _ => rfl
      exact ht.andThen (ih used left hl)
    | positional =>
      cases left with
      | nil => exact fun h => nomatch h
      | cons v left =>
        obtain ⟨hv, hl⟩ := List.forall_mem_cons.mp hl
        exact hv.andThen (ih (used + 1) left hl)
    | named token =>
      rw [fillFrom, Template.reachedFrom, lookup_map_values, lookup_map_values]
      cases h : named.lookup token with
      | none => exact fun h => nomatch h
      | some v => exact (hn _ (mem_of_lookup h)).andThen (ih used left hl)

theorem meets_sequence (items : List Value) (h : ∀ v ∈ items, (f v).Meets (g v)) :
    (sequence (items.map f)).Meets (items.map g).flatten := by
  intro hs
  rw [sequence, Draft.literals_joinFilled]
  simp only [sequence] at hs
  induction items with
  | nil => rfl
  | cons v items ih =>
    obtain ⟨hv, hi⟩ := List.forall_mem_cons.mp h
    cases hf : (f v).stop with
    | none =>
      simp only [List.map_cons, each, hf] at hs ⊢
      rw [List.flatMap_cons, List.flatten_cons, hv hf, ih hi hs]
    | some e => simp [each, hf] at hs

end Walk

/-- **A walk to the end meets the literals that the value reaches.** -/
theorem Value.meets_reached (d : Dialect) (v : Value) : (v.walk d).Meets v.reached := by
  induction v with
  | literal l => exact fun _ => rfl
  | identifier n => exact fun _ => rfl
  | column n => exact fun _ => rfl
  | table n => exact fun _ => rfl
  | sequence items ih =>
    rw [Value.walk_sequence, Value.reached, reachedAll_eq_map]
    exact Walk.meets_sequence items ih
  | expression template positional named ihp ihn =>
    rw [Value.walk_expression, Value.reached, Expression.reached, reachedAll_eq_map,
      reachedNamed_eq_map]
    split
    · exact fun _ => rfl
    · exact Walk.meets_fillFrom template ihn _ 0 positional ihp

end PortableSql
