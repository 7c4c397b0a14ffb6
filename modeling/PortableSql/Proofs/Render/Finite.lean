import PortableSql.Proofs.Render.Agreement
import PortableSql.Proofs.Render.Fault

/-!
# Values with finite numbers only

Compiling can only fail where preparing does not by meeting a double without a literal. Where no
double is one, the two renderers succeed or fail together, with the same error.

* **`Value.Finite`**: no literal that a traversal reaches is a double without a literal of its own.
* `Value.Finite.sequence`, `Value.Finite.expression`: the values put together from such values.
* `Trail.mem_literals_fillFrom`: the literals on the way through a template.
* **`Value.Finite.render`**: both renderers succeed, with the same segments, or both fail alike.
-/

namespace PortableSql

/-- **No literal that a traversal of the value reaches is a double without a literal.** -/
def Value.Finite (v : Value) : Prop := ∀ l ∈ v.trail.literals, l.nonFinite? = none

/-! ## Values put together -/

namespace Trail

variable {t u : Trail} {l : Literal}

theorem mem_literals_andThen (h : l ∈ (t.andThen u).literals) :
    l ∈ t.literals ∨ l ∈ u.literals := by
  cases hs : t.stop with
  | none =>
    rw [literals_andThen_of_stop_eq_none hs] at h
    exact List.mem_append.mp h
  | some e =>
    rw [andThen_of_stop_eq_some hs] at h
    exact .inl h

theorem mem_literals_inOrder {ts : List Trail} (h : l ∈ (inOrder ts).literals) :
    ∃ t ∈ ts, l ∈ t.literals := by
  induction ts with
  | nil => cases h
  | cons t ts ih =>
    rcases mem_literals_andThen h with h | h
    · exact ⟨t, List.mem_cons_self, h⟩
    · obtain ⟨u, hu, hl⟩ := ih h
      exact ⟨u, List.mem_cons_of_mem t hu, hl⟩

/-- The literals on the way through pieces are those of values that the placeholders stand for. -/
theorem mem_literals_fillFrom {template : String} {named : List (String × Trail)}
    {ps : List Piece} {used : Nat} {left : List Trail}
    (h : l ∈ (fillFrom template named ps used left).literals) :
    (∃ t ∈ left, l ∈ t.literals) ∨ ∃ p ∈ named, l ∈ p.2.literals := by
  induction ps generalizing used left with
  | nil => cases left <;> cases h
  | cons p ps ih =>
    match p, left with
    | .text _, left => exact ih h
    | .positional, [] => cases h
    | .positional, t :: left =>
      rcases mem_literals_andThen h with h | h
      · exact .inl ⟨t, List.mem_cons_self, h⟩
      · exact (ih h).imp_left fun ⟨u, hu, hl⟩ => ⟨u, List.mem_cons_of_mem t hu, hl⟩
    | .named token, left =>
      rw [fillFrom] at h
      split at h
      case h_1 => cases h
      case h_2 t ht =>
        rcases mem_literals_andThen h with h | h
        · exact .inr ⟨(token, t), mem_of_lookup ht, h⟩
        · exact ih h

end Trail

namespace Value.Finite

theorem literal {l : Literal} (h : l.nonFinite? = none) : (Value.literal l).Finite :=
  fun _ hl => List.mem_singleton.mp hl ▸ h

theorem sequence {items : List Value} (h : ∀ v ∈ items, v.Finite) :
    (Value.sequence items).Finite := by
  intro l hl
  rw [Value.trail_sequence] at hl
  obtain ⟨t, ht, hl⟩ := Trail.mem_literals_inOrder hl
  obtain ⟨v, hv, rfl⟩ := List.mem_map.mp ht
  exact h v hv l hl

theorem expression {e : Expression} (hpositional : ∀ v ∈ e.positional, v.Finite)
    (hnamed : ∀ p ∈ e.named, p.2.Finite) : (Value.expression e).Finite := by
  obtain ⟨template, positional, named⟩ := e
  intro l hl
  rw [Value.trail_expression] at hl
  split at hl
  case isTrue => cases hl
  case isFalse =>
    rcases Trail.mem_literals_fillFrom hl with ⟨t, ht, hl⟩ | ⟨p, hp, hl⟩
    · obtain ⟨v, hv, rfl⟩ := List.mem_map.mp ht
      exact hpositional v hv l hl
    · obtain ⟨q, hq, rfl⟩ := List.mem_map.mp hp
      exact hnamed q hq l hl

end Value.Finite

/-! ## Both renderers -/

/-- The two texts of a value are one draft with different marks. -/
theorem Value.sameSegments_of_ok {d : Dialect} {v : Value} {p : Prepared} {text : String}
    (hp : v.prepare d = .ok p) (hc : v.compile d = .ok text) : p.SameSegments d text := by
  obtain ⟨-, rfl⟩ := prepare_eq_ok_iff.mp hp
  obtain ⟨-, quoted, hq, rfl⟩ := compile_eq_ok_iff.mp hc
  have hmarks := Dialect.quoteEach_eq_ok_iff.mp hq
  refine ⟨(v.walk d).draft.segments, quoted, Draft.length_segments _, hmarks, ?_, ?_⟩
  · rw [Draft.weave_segments _ _ (by rw [List.length_map, List.length_range'])]
    rfl
  · exact (Draft.weave_segments _ _ hmarks.length_eq.symm).symm

/-- **The renderers of a value with finite numbers succeed or fail together**, in any dialect. -/
theorem Value.Finite.render {v : Value} (h : v.Finite) (d : Dialect) :
    (∃ text p, v.compile d = .ok text ∧ v.prepare d = .ok p ∧ p.SameSegments d text) ∨
      ∃ e, v.compile d = .error e ∧ v.prepare d = .error e := by
  have hcompile := compile_of_findSome?_eq_none (d := d) (List.findSome?_eq_none_iff.mpr h)
  cases hp : v.prepare d with
  | ok p =>
    rw [(prepare_eq_trail hp).1] at hcompile
    obtain ⟨text, hc⟩ := hcompile
    exact .inl ⟨text, p, hc, rfl, sameSegments_of_ok hp hc⟩
  | error e =>
    rw [prepare_eq_error_iff.mp hp] at hcompile
    exact .inr ⟨e, hcompile, rfl⟩

end PortableSql
