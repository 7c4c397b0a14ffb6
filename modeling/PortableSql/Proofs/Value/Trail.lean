import PortableSql.Proofs.Value.Induction
import PortableSql.Render.Error
import PortableSql.Template

/-!
# The trail of a value

A value is traversed from left to right: a sequence through its items, and an expression through
its template, where each placeholder leads into the value it stands for. A placeholder without a
value ends the traversal where it stands, a value without a placeholder at the end of the template.
No dialect plays a part in it.

* **`Leaf`**: a part of a value in which no other part is nested.
* `Trail`, `Trail.andThen`, `Trail.inOrder`, `Trail.fillFrom`; **`Value.trail`**: the leaves that
  the traversal reaches, and the mismatch that ends it.
* `Value.trail_sequence`, `Value.trail_expression`: the trail in terms of the trails of the parts.
-/

namespace PortableSql

/-- **A part of a value in which no other part is nested.** -/
inductive Leaf where
  | literal (l : Literal)
  | identifier (n : Name)
  | column (n : Name)
  | table (n : Name)
  /-- The template of an expression without values. -/
  | raw (sql : String)

/-- The literal that a leaf is. -/
def Leaf.literal? : Leaf → Option Literal
  | .literal l => some l
  | _ => none

/-- **The leaves that a traversal reaches**, and the mismatch that ends it, if one does. -/
structure Trail where
  leaves : List Leaf
  stop : Option RenderError

namespace Trail

/-- The trail without leaves. -/
def empty : Trail := ⟨[], none⟩

/-- The trail of one leaf. -/
def leaf (x : Leaf) : Trail := ⟨[x], none⟩

/-- The trail that ends at once. -/
def halt (e : RenderError) : Trail := ⟨[], some e⟩

/-- A trail, and another one after it unless it has ended. -/
def andThen (t u : Trail) : Trail :=
  match t.stop with
  | none => ⟨t.leaves ++ u.leaves, u.stop⟩
  | some _ => t

/-- Trails in order, up to the first that ends. -/
def inOrder : List Trail → Trail
  | [] => empty
  | t :: ts => t.andThen (inOrder ts)

/-- The trail through pieces when `used` positional values have been taken and `left` remain. -/
def fillFrom (template : String) (named : List (String × Trail)) :
    List Piece → Nat → List Trail → Trail
  | [], _, [] => empty
  | [], used, left => halt (.unusedPositional used (used + left.length) template)
  | .text _ :: ps, used, left => fillFrom template named ps used left
  | .positional :: _, used, [] => halt (.missingPositional used template)
  | .positional :: ps, used, t :: left => t.andThen (fillFrom template named ps (used + 1) left)
  | .named token :: ps, used, left =>
    match named.lookup token with
    | none => halt (.missingNamed token template)
    | some t => t.andThen (fillFrom template named ps used left)

/-- The trail through a template with values. -/
def fill (template : String) (positional : List Trail) (named : List (String × Trail)) : Trail :=
  fillFrom template named (Template.split template) 0 positional

/-- The literals among the leaves, in order. -/
def literals (t : Trail) : List Literal := t.leaves.filterMap Leaf.literal?

end Trail

mutual

/-- **The trail of a value.** -/
def Value.trail : Value → Trail
  | .literal l => .leaf (.literal l)
  | .identifier n => .leaf (.identifier n)
  | .column n => .leaf (.column n)
  | .table n => .leaf (.table n)
  | .sequence items => .inOrder (trailAll items)
  | .expression e => e.trail

/-- The trail of an expression. -/
def Expression.trail : Expression → Trail
  | ⟨template, positional, named⟩ =>
    if positional.isEmpty && named.isEmpty then .leaf (.raw template)
    else .fill template (trailAll positional) (trailNamed named)

/-- The trail of each value. -/
def trailAll : List Value → List Trail
  | [] => []
  | v :: vs => v.trail :: trailAll vs

/-- The trail of each named value, under its token. -/
def trailNamed : List (String × Value) → List (String × Trail)
  | [] => []
  | (token, v) :: vs => (token, v.trail) :: trailNamed vs

end

theorem trailAll_eq_map (vs : List Value) : trailAll vs = vs.map Value.trail :=
  eq_map_of_cons rfl (fun _ _ => rfl) vs

theorem trailNamed_eq_map (ps : List (String × Value)) :
    trailNamed ps = ps.map fun p => (p.1, p.2.trail) :=
  eq_map_of_cons rfl (fun _ _ => rfl) ps

theorem Value.trail_sequence (items : List Value) :
    (Value.sequence items).trail = .inOrder (items.map Value.trail) := by
  rw [Value.trail, trailAll_eq_map]

theorem Value.trail_expression (template : String) (positional : List Value)
    (named : List (String × Value)) :
    (Value.expression ⟨template, positional, named⟩).trail =
      if positional.isEmpty && named.isEmpty then .leaf (.raw template)
      else .fill template (positional.map Value.trail) (named.map fun p => (p.1, p.2.trail)) := by
  rw [Value.trail, Expression.trail, trailAll_eq_map, trailNamed_eq_map]

namespace Trail

variable {t u : Trail}

theorem andThen_of_stop_eq_none (h : t.stop = none) :
    t.andThen u = ⟨t.leaves ++ u.leaves, u.stop⟩ := by
  rw [andThen, h]

theorem andThen_of_stop_eq_some {e : RenderError} (h : t.stop = some e) : t.andThen u = t := by
  rw [andThen, h]

theorem literals_andThen_of_stop_eq_none (h : t.stop = none) :
    (t.andThen u).literals = t.literals ++ u.literals := by
  rw [andThen_of_stop_eq_none h]
  exact List.filterMap_append

end Trail

end PortableSql
