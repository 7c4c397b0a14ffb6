import Mathlib.Algebra.BigOperators.Group.List.Basic
import Mathlib.Algebra.GroupWithZero.Nat
import PortableSql.Proofs.Render.Follow
import PortableSql.Proofs.Render.Rereading
import PortableSql.Proofs.Template.Decomposition

/-!
# How often a character is written

A character that neither commas nor templates with values bring in stands in a rendering as often as
in the leaves that the traversal reaches.

* `Leaf.text`: a leaf as it is written.
* `Value.templates`: the templates with values that the traversal reaches.
* `Draft.count`, `Draft.count_joinFilled`: the occurrences of a character in drafts.
* `Trail.ShownBy`, **`Value.trail_shownBy`**: the walk through a value writes the character as often
  as its leaves hold it.
* **`Value.count_mark_prepare`**: every question mark of a prepared text is accounted for.
-/

namespace PortableSql

/-! ## What the traversal reaches -/

/-- A leaf as it is written; a literal has no text of its own. -/
def Leaf.text (d : Dialect) : Leaf → String
  | .literal _ => ""
  | .identifier n => d.identifierText n
  | .column n => d.columnText n
  | .table n => d.tableText n
  | .raw sql => sql

/-- What is listed for the named placeholders among pieces, at every occurrence of a token. -/
def Template.listNamed {α : Type} (named : List (String × List α)) (ps : List Piece) : List α :=
  ps.flatMap fun
    | .named token => (named.lookup token).getD []
    | _ => []

mutual

/-- **The templates with values that a traversal of the value reaches.** -/
def Value.templates : Value → List String
  | .literal _ | .identifier _ | .column _ | .table _ => []
  | .sequence items => (templatesAll items).flatten
  | .expression e => e.templates

/-- The templates that an expression reaches, its own first. -/
def Expression.templates : Expression → List String
  | ⟨template, positional, named⟩ =>
    if positional.isEmpty && named.isEmpty then []
    else template :: ((templatesAll positional).flatten ++
      Template.listNamed (templatesNamed named) (Template.split template))

/-- The templates of each value. -/
def templatesAll : List Value → List (List String)
  | [] => []
  | v :: vs => v.templates :: templatesAll vs

/-- The templates of each named value, under its token. -/
def templatesNamed : List (String × Value) → List (String × List String)
  | [] => []
  | (token, v) :: vs => (token, v.templates) :: templatesNamed vs

end

theorem templatesAll_eq_map (vs : List Value) : templatesAll vs = vs.map Value.templates :=
  eq_map_of_cons rfl (fun _ _ => rfl) vs

theorem templatesNamed_eq_map (ps : List (String × Value)) :
    templatesNamed ps = ps.map fun p => (p.1, p.2.templates) :=
  eq_map_of_cons rfl (fun _ _ => rfl) ps

namespace Value

variable {template t : String} {positional : List Value} {named : List (String × Value)} {v : Value}

theorem mem_templates_item {items : List Value} (hv : v ∈ items) (ht : t ∈ v.templates) :
    t ∈ (Value.sequence items).templates := by
  rw [templates, templatesAll_eq_map]
  exact List.mem_flatten_of_mem (List.mem_map_of_mem hv) ht

theorem templates_expression (h : (positional.isEmpty && named.isEmpty) = false) :
    (Value.expression ⟨template, positional, named⟩).templates =
      template :: (positional.flatMap templates ++
        Template.listNamed (named.map fun p => (p.1, p.2.templates))
          (Template.split template)) := by
  rw [templates, Expression.templates, if_neg (by simp [h]), templatesAll_eq_map,
    templatesNamed_eq_map]
  rfl

theorem mem_templates_positional (h : (positional.isEmpty && named.isEmpty) = false)
    (hv : v ∈ positional) (ht : t ∈ v.templates) :
    t ∈ (Value.expression ⟨template, positional, named⟩).templates := by
  rw [templates_expression h]
  exact List.mem_cons_of_mem _ (List.mem_append_left _ (List.mem_flatMap_of_mem hv ht))

theorem mem_templates_named (h : (positional.isEmpty && named.isEmpty) = false) {token : String}
    (htoken : .named token ∈ Template.split template) (hv : named.lookup token = some v)
    (ht : t ∈ v.templates) :
    t ∈ (Value.expression ⟨template, positional, named⟩).templates := by
  rw [templates_expression h]
  refine List.mem_cons_of_mem _ (List.mem_append_right _ (List.mem_flatMap.mpr ⟨_, htoken, ?_⟩))
  simp only [lookup_map_values, hv, Option.map_some, Option.getD_some, ht]

end Value

/-! ## Drafts -/

namespace Draft

variable {c : Char} {separator : String}

/-- How often a character stands in the texts of a draft. -/
def count (c : Char) (t : Draft) : Nat := (t.write []).toList.count c

theorem count_nil : count c nil = 0 := rfl

theorem count_text (s : String) (t : Draft) :
    count c (text s t) = s.toList.count c + count c t := by
  rw [count, write, String.toList_append, List.count_append, count]

theorem count_append (a b : Draft) : count c (a ++ b) = count c a + count c b := by
  induction a with
  | nil => rw [nil_append, count_nil, Nat.zero_add]
  | text s a ih => rw [text_append, count_text, count_text, ih, Nat.add_assoc]
  | literal l a ih => exact ih

theorem count_of_isBlank {t : Draft} (h : t.isBlank) : count c t = 0 := by
  induction t with
  | nil => rfl
  | text s t ih =>
    simp only [isBlank, Bool.and_eq_true, decide_eq_true_eq] at h
    rw [count_text, ih h.2, h.1]
    rfl
  | literal l t => simp [isBlank] at h

theorem count_join (hc : c ∉ separator.toList) (ts : List Draft) :
    count c (join separator ts) = (ts.map (count c)).sum := by
  induction ts with
  | nil => rfl
  | cons t ts ih =>
    cases ts with
    | nil => exact (List.sum_singleton).symm
    | cons u ts =>
      rw [join, count_append, count_text, List.count_eq_zero_of_not_mem hc, ih, Nat.zero_add,
        List.map_cons (l := u :: ts), List.sum_cons]

/-- Joining adds and loses no character but those of the separator. -/
theorem count_joinFilled (hc : c ∉ separator.toList) (ts : List Draft) :
    count c (joinFilled separator ts) = (ts.map (count c)).sum := by
  rw [joinFilled, count_join hc]
  induction ts with
  | nil => rfl
  | cons t ts ih =>
    by_cases ht : t.isBlank
    · rw [List.filter_cons_of_neg (by simp [ht]), ih, List.map_cons, List.sum_cons,
        count_of_isBlank ht, Nat.zero_add]
    · rw [List.filter_cons_of_pos (by simp [ht]), List.map_cons, List.sum_cons, ih, List.map_cons,
        List.sum_cons]

end Draft

/-! ## Walks -/

/-- How often the leaves of a trail hold a character, as they are written. -/
def Trail.count (d : Dialect) (c : Char) (t : Trail) : Nat :=
  (t.leaves.map fun x => (x.text d).toList.count c).sum

/-- **The walk ends as the trail does, and writes the character as often as the leaves hold it.** -/
structure Trail.ShownBy (d : Dialect) (c : Char) (t : Trail) (w : Walk) : Prop where
  stop : w.stop = t.stop
  count : w.draft.count c = t.count d c

namespace Trail

variable {d : Dialect} {c : Char} {t u : Trail} {w k : Walk}

theorem shownBy_leaf (x : Leaf) : (leaf x).ShownBy d c ⟨x.draft d, none⟩ where
  stop := rfl
  count := by cases x <;> simp [Trail.count, leaf, Leaf.draft, Leaf.text, Draft.count, Draft.write]

theorem shownBy_text {s : String} (hs : c ∉ s.toList) : empty.ShownBy d c (.text s) where
  stop := rfl
  count := by
    rw [Walk.text, Draft.count_text, List.count_eq_zero_of_not_mem hs]
    rfl

theorem shownBy_halt (e : RenderError) : (halt e).ShownBy d c (.halt e) := ⟨rfl, rfl⟩

theorem ShownBy.andThen (ht : t.ShownBy d c w) (hu : u.ShownBy d c k) :
    (t.andThen u).ShownBy d c (w.andThen k) := by
  unfold Walk.andThen
  rw [ht.stop]
  cases hs : t.stop with
  | none =>
    rw [andThen_of_stop_eq_none hs]
    refine ⟨hu.stop, ?_⟩
    rw [Draft.count_append, ht.count, hu.count, Trail.count, Trail.count, Trail.count,
      List.map_append, List.sum_append]
  | some e =>
    rw [andThen_of_stop_eq_some hs]
    exact ht

/-! ### Templates and sequences

The parts are values with a trail `f` and a walk `g`. -/

variable {f : Value → Trail} {g : Value → Walk}

theorem shownBy_fillFrom (template : String) {named : List (String × Value)} {ps : List Piece}
    (hp : ∀ s, .text s ∈ ps → c ∉ s.toList)
    (hn : ∀ token v, .named token ∈ ps → named.lookup token = some v → (f v).ShownBy d c (g v))
    (used : Nat) {left : List Value} (hl : ∀ v ∈ left, (f v).ShownBy d c (g v)) :
    (fillFrom template (named.map fun p => (p.1, f p.2)) ps used (left.map f)).ShownBy d c
      (Walk.fillFrom template (named.map fun p => (p.1, g p.2)) ps used (left.map g)) := by
  induction ps generalizing used left with
  | nil =>
    cases left with
    | nil => exact ⟨rfl, rfl⟩
    | cons v left =>
      simp only [fillFrom, Walk.fillFrom, List.map_cons, List.length_cons, List.length_map]
      exact shownBy_halt _
  | cons p ps ih =>
    have hrest (used : Nat) {left : List Value} (hl : ∀ v ∈ left, (f v).ShownBy d c (g v)) :=
      ih (fun s hs => hp s (List.mem_cons_of_mem p hs))
        (fun token v ht => hn token v (List.mem_cons_of_mem p ht)) used hl
    cases p with
    | text s => exact (shownBy_text (hp s List.mem_cons_self)).andThen (hrest used hl)
    | positional =>
      cases left with
      | nil => exact shownBy_halt _
      | cons v left =>
        obtain ⟨hv, hl⟩ := List.forall_mem_cons.mp hl
        exact hv.andThen (hrest (used + 1) hl)
    | named token =>
      simp only [fillFrom, Walk.fillFrom, lookup_map_values]
      cases h : named.lookup token with
      | none => exact shownBy_halt _
      | some v => exact (hn token v List.mem_cons_self h).andThen (hrest used hl)

/-- The walks through items, up to the first that stops. -/
theorem shownBy_each {items : List Value} (h : ∀ v ∈ items, (f v).ShownBy d c (g v)) :
    (Walk.each (items.map g)).2 = (inOrder (items.map f)).stop ∧
      ((Walk.each (items.map g)).1.map (Draft.count c)).sum =
        (inOrder (items.map f)).count d c := by
  induction items with
  | nil => exact ⟨rfl, rfl⟩
  | cons v items ih =>
    obtain ⟨hv, hi⟩ := List.forall_mem_cons.mp h
    obtain ⟨hstop, hcount⟩ := ih hi
    simp only [List.map_cons, inOrder, Walk.each, hv.stop]
    cases hs : (f v).stop with
    | none =>
      rw [andThen_of_stop_eq_none hs]
      refine ⟨hstop, ?_⟩
      rw [List.map_cons, List.sum_cons, hv.count, hcount, Trail.count, Trail.count, Trail.count,
        List.map_append, List.sum_append]
    | some e =>
      rw [andThen_of_stop_eq_some hs]
      exact ⟨hs.symm, by rw [List.map_singleton, List.sum_singleton, hv.count]⟩

theorem shownBy_sequence (hc : c ∉ (", " : String).toList) {items : List Value}
    (h : ∀ v ∈ items, (f v).ShownBy d c (g v)) :
    (inOrder (items.map f)).ShownBy d c (.sequence (items.map g)) := by
  obtain ⟨hstop, hcount⟩ := shownBy_each h
  exact ⟨hstop, (Draft.count_joinFilled hc _).trans hcount⟩

end Trail

/-- **A character that stands neither in commas nor between the placeholders of templates is written
as often as the leaves hold it.** -/
theorem Value.trail_shownBy {d : Dialect} {c : Char} (hc : c ∉ (", " : String).toList) {v : Value}
    (h : ∀ t ∈ v.templates, ∀ s, .text s ∈ Template.split t → c ∉ s.toList) :
    v.trail.ShownBy d c (v.walk d) := by
  induction v with
  | literal l => exact Trail.shownBy_leaf (.literal l)
  | identifier n => exact Trail.shownBy_leaf (.identifier n)
  | column n => exact Trail.shownBy_leaf (.column n)
  | table n => exact Trail.shownBy_leaf (.table n)
  | sequence items ih =>
    rw [Value.trail_sequence, Value.walk_sequence]
    exact Trail.shownBy_sequence hc fun v hv =>
      ih v hv fun t ht => h t (mem_templates_item hv ht)
  | expression template positional named ihp ihn =>
    rw [Value.trail_expression, Value.walk_expression]
    split
    case isTrue => exact Trail.shownBy_leaf (.raw template)
    case isFalse hempty =>
      rw [Bool.not_eq_true] at hempty
      refine Trail.shownBy_fillFrom template (h template ?_) (fun token v htoken hv => ?_) 0
        fun v hv => ihp v hv fun t ht => h t (mem_templates_positional hempty hv ht)
      · rw [templates_expression hempty]
        exact List.mem_cons_self
      · exact ihn _ (mem_of_lookup hv) fun t ht => h t (mem_templates_named hempty htoken hv ht)

/-- What a text between placeholders holds, the template holds. -/
theorem Template.mem_of_mem_text {template s : String} {c : Char} (h : .text s ∈ split template)
    (hc : c ∈ s.toList) : c ∈ template.toList := by
  rw [← text_split template, toList_text]
  exact List.mem_flatMap_of_mem h hc

/-- A character that no leaf and no template holds is not written. -/
theorem Value.count_walk_eq_zero {d : Dialect} {c : Char} (hc : c ∉ (", " : String).toList)
    {v : Value} (hleaves : ∀ x ∈ v.trail.leaves, c ∉ (x.text d).toList)
    (htemplates : ∀ t ∈ v.templates, c ∉ t.toList) : (v.walk d).draft.count c = 0 := by
  have h := v.trail_shownBy (d := d) hc fun t ht s hs hmem =>
    htemplates t ht (Template.mem_of_mem_text hs hmem)
  rw [h.count]
  refine List.sum_eq_zero fun n hn => ?_
  obtain ⟨x, hx, rfl⟩ := List.mem_map.mp hn
  exact List.count_eq_zero.mpr (hleaves x hx)

/-! ## Question marks -/

/-- No text between placeholders holds a question mark. -/
theorem Template.mark_not_mem_text {template s : String} (h : .text s ∈ split template) :
    '?' ∉ s.toList := by
  obtain ⟨before, after, hsplit⟩ := List.append_of_mem h
  exact ((canonical_split template).stands before (.text s) after hsplit).2.1

/-- **Every question mark of a prepared text is accounted for**: where bound values are marked by
question marks, there is one for each of them, and the others are those of the names, as they are
written, and of the templates without values that the traversal reaches. -/
theorem Value.count_mark_prepare {d : Dialect} {v : Value} {p : Prepared}
    (hd : ∀ n, d.placeholder n = "?") (hp : v.prepare d = .ok p) :
    p.sql.toList.count '?' =
      p.binds.length + (v.trail.leaves.map fun x => (x.text d).toList.count '?').sum := by
  obtain ⟨-, rfl⟩ := prepare_eq_ok_sql hd hp
  have hcount := (v.trail_shownBy (d := d) (by decide : '?' ∉ (", " : String).toList)
    fun t _ s hs => Template.mark_not_mem_text hs).count
  rw [Draft.count_sql]
  exact congrArg _ hcount

/-- Question marks for the table prefix and the closing delimiter, in a literal, in a name, and in a
template without values that is reached twice. -/
theorem Value.count_mark_prepare_repeated :
    let d : Dialect := .configured ⟨.sqlite, "?", some ⟨'[', '?'⟩⟩
    let v : Value := .expression ⟨"? IN (:n, ?) OR :n",
      [.column ⟨"a?", .none⟩, .table ⟨"t", .none⟩],
      [(":n", .sequence [.literal (.text "?"), .sequence [], .expression (.raw "x ? y")]),
        (":m", .expression (.raw "?"))]⟩
    let p : Prepared := ⟨"[a??? IN (?, x ? y, [??t?) OR ?, x ? y", [.text "?", .text "?"]⟩
    (∀ n, d.placeholder n = "?") ∧ v.prepare d = .ok p ∧
      (v.trail.leaves.map fun x => (x.text d).toList.count '?') = [3, 0, 1, 3, 0, 1] ∧
      p.sql.toList.count '?' =
        p.binds.length + (v.trail.leaves.map fun x => (x.text d).toList.count '?').sum :=
  ⟨fun _ => rfl, rfl, by decide, Value.count_mark_prepare (fun _ => rfl) rfl⟩

end PortableSql
