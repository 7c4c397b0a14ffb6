import PortableSql.Proofs.Decimal.Classes
import PortableSql.Proofs.Render.Follow
import PortableSql.Proofs.Render.Outcome

/-!
# The errors of the two renderers

Preparing fails at the mismatch that ends the trail of a value. Compiling fails there too, unless
the trail has met a double before that no literal can stand for: then it fails at the first of
those.

* `NonFinite.ofFloat?`, `Literal.nonFinite?`: the doubles without a literal.
* `Dialect.quoteLiteral_of_nonFinite?`, `Dialect.exists_quoteLiteral`: only they cannot be quoted.
* `Dialect.quoteEach_of_findSome?`, `Dialect.exists_quoteEach`: the same for several literals.
* **`Value.compile_error_of_prepare`**: the errors of compiling in terms of those of preparing.
-/

namespace PortableSql

/-- What is wrong with a double, if it is not a finite number. -/
def NonFinite.ofFloat? (x : Float) : Option NonFinite :=
  if x.isNaN then some .nan
  else if x.isInf then some (.infinite (x < 0))
  else none

/-- What is wrong with a literal, if it is a double that is not a finite number. -/
def Literal.nonFinite? : Literal → Option NonFinite
  | .float x => NonFinite.ofFloat? x
  | _ => none

theorem NonFinite.ofFloat?_eq_none {x : Float} :
    ofFloat? x = none ↔ x.isNaN = false ∧ x.isInf = false := by
  unfold ofFloat?
  cases x.isNaN <;> cases x.isInf <;> simp

theorem Literal.findSome?_nonFinite?_eq_none {ls : List Literal} :
    ls.findSome? nonFinite? = none ↔ ∀ x, .float x ∈ ls → x.isNaN = false ∧ x.isInf = false := by
  rw [List.findSome?_eq_none_iff]
  constructor
  · intro h x hx
    exact NonFinite.ofFloat?_eq_none.mp (h _ hx)
  · intro h l hl
    cases l with
    | float x => exact NonFinite.ofFloat?_eq_none.mpr (h x hl)
    | _ => rfl

/-! ## Quoting -/

theorem quoteFloat_of_ofFloat? {x : Float} {e : NonFinite} (h : NonFinite.ofFloat? x = some e) :
    quoteFloat x = .error (.nonFiniteFloat e) := by
  unfold NonFinite.ofFloat? at h
  rcases Decimal.Binary64.ofFloat_cases x with ⟨hn, hx⟩ | ⟨hn, hi, hx⟩ | ⟨hn, hi, -⟩
  · rw [if_pos hn, Option.some.injEq] at h
    simp only [quoteFloat, Decimal.Layout.write, hx, h]
  · rw [hn, hi, if_neg Bool.false_ne_true, if_pos rfl, Option.some.injEq] at h
    simp only [quoteFloat, Decimal.Layout.write, hx, h]
  · rw [hn, hi] at h
    simp at h

theorem exists_quoteFloat {x : Float} (h : NonFinite.ofFloat? x = none) :
    ∃ s, quoteFloat x = .ok s := by
  obtain ⟨hn, hi⟩ := NonFinite.ofFloat?_eq_none.mp h
  rcases Decimal.Binary64.ofFloat_cases x with ⟨hn', -⟩ | ⟨-, hi', -⟩ | ⟨-, -, negative, m, e, hx⟩
  · rw [hn] at hn'
    cases hn'
  · rw [hi] at hi'
    cases hi'
  · simp only [quoteFloat, Decimal.Layout.write, hx]
    exact ⟨_, rfl⟩

namespace Dialect

variable (d : Dialect)

theorem quoteLiteral_of_nonFinite? {l : Literal} {e : NonFinite} (h : l.nonFinite? = some e) :
    d.quoteLiteral l = .error (.nonFiniteFloat e) := by
  cases l with
  | float x => exact quoteFloat_of_ofFloat? h
  | _ => cases h

theorem exists_quoteLiteral {l : Literal} (h : l.nonFinite? = none) :
    ∃ s, d.quoteLiteral l = .ok s := by
  cases l with
  | float x => exact exists_quoteFloat h
  | _ => exact ⟨_, rfl⟩

theorem quoteEach_of_findSome? {ls : List Literal} {e : NonFinite}
    (h : ls.findSome? Literal.nonFinite? = some e) :
    d.quoteEach ls = .error (.nonFiniteFloat e) := by
  induction ls with
  | nil => cases h
  | cons l ls ih =>
    rw [List.findSome?_cons] at h
    rw [quoteEach]
    cases hl : l.nonFinite? with
    | some e' =>
      rw [hl] at h
      cases h
      rw [d.quoteLiteral_of_nonFinite? hl]
      rfl
    | none =>
      rw [hl] at h
      obtain ⟨s, hs⟩ := d.exists_quoteLiteral hl
      rw [hs, ih h]
      rfl

theorem exists_quoteEach {ls : List Literal} (h : ls.findSome? Literal.nonFinite? = none) :
    ∃ marks, d.quoteEach ls = .ok marks := by
  obtain ⟨marks, hmarks⟩ := exists_forall₂ fun l hl =>
    d.exists_quoteLiteral (List.findSome?_eq_none_iff.mp h l hl)
  exact ⟨marks, quoteEach_eq_ok_iff.mpr hmarks⟩

end Dialect

/-! ## The two renderers -/

/-- The error of a traversal that has met `ls` before `e`: that of the first double without a
literal, and `e` if there is none. -/
def RenderError.orEarlier (e : RenderError) (ls : List Literal) : RenderError :=
  match ls.findSome? Literal.nonFinite? with
  | some x => .nonFiniteFloat x
  | none => e

theorem Value.compile_of_findSome? {d : Dialect} {v : Value} {x : NonFinite}
    (h : v.trail.literals.findSome? Literal.nonFinite? = some x) :
    v.compile d = .error (.nonFiniteFloat x) := by
  rw [Value.compile_eq, v.trail_followedBy.literals, d.quoteEach_of_findSome? h]
  rfl

/-- Without such doubles, compiling ends as the traversal ends. -/
theorem Value.compile_of_findSome?_eq_none {d : Dialect} {v : Value}
    (h : v.trail.literals.findSome? Literal.nonFinite? = none) :
    match v.trail.stop with
    | none => ∃ text, v.compile d = .ok text
    | some e => v.compile d = .error e := by
  obtain ⟨marks, hm⟩ := d.exists_quoteEach h
  rw [Value.compile_eq, v.trail_followedBy.literals, v.trail_followedBy.stop, hm]
  cases v.trail.stop with
  | none => exact ⟨_, rfl⟩
  | some e => rfl

theorem Value.prepare_eq_trail {d : Dialect} {v : Value} {p : Prepared} (h : v.prepare d = .ok p) :
    v.trail.stop = none ∧ v.trail.literals = p.binds := by
  obtain ⟨hs, rfl⟩ := prepare_eq_ok_iff.mp h
  rw [← v.trail_followedBy.stop d, ← v.trail_followedBy.literals d]
  exact ⟨hs, rfl⟩

theorem Value.prepare_eq_error_iff {d : Dialect} {v : Value} {e : RenderError} :
    v.prepare d = .error e ↔ v.trail.stop = some e := by
  rw [Value.prepare_eq, ← v.trail_followedBy.stop d]
  cases (v.walk d).stop with
  | none => exact ⟨fun h => (nomatch h), fun h => (nomatch h)⟩
  | some e' => rw [Except.error.injEq, Option.some.injEq]

/-- **Compiling fails as preparing does**, apart from the doubles without a literal. If a value is
prepared, then it is compiled just when none of the bound doubles is one of them, and the first of
them is the error. If it is not prepared, then the error is the same, or the first of those that the
traversal has reached before. -/
theorem Value.compile_error_of_prepare (d : Dialect) (v : Value) :
    (∀ p, v.prepare d = .ok p →
      ((∃ text, v.compile d = .ok text) ↔
        ∀ x, .float x ∈ p.binds → x.isNaN = false ∧ x.isInf = false) ∧
      ∀ x, p.binds.findSome? Literal.nonFinite? = some x →
        v.compile d = .error (.nonFiniteFloat x)) ∧
    ∀ e, v.prepare d = .error e →
      v.trail.stop = some e ∧ v.compile d = .error (e.orEarlier v.trail.literals) := by
  refine ⟨fun p hp => ?_, fun e he => ?_⟩
  · obtain ⟨hs, hl⟩ := prepare_eq_trail hp
    rw [← hl, ← Literal.findSome?_nonFinite?_eq_none]
    refine ⟨⟨fun ⟨text, htext⟩ => ?_, fun h => ?_⟩, fun x hx => compile_of_findSome? hx⟩
    · rw [Option.eq_none_iff_forall_ne_some]
      intro x hx
      have herror : v.compile d = .error (.nonFiniteFloat x) := compile_of_findSome? hx
      rw [htext] at herror
      cases herror
    · have hok := compile_of_findSome?_eq_none (d := d) h
      rw [hs] at hok
      exact hok
  · have hs := prepare_eq_error_iff.mp he
    refine ⟨hs, ?_⟩
    unfold RenderError.orEarlier
    cases h : v.trail.literals.findSome? Literal.nonFinite? with
    | some x => exact compile_of_findSome? h
    | none =>
      have herror := compile_of_findSome?_eq_none (d := d) h
      rw [hs] at herror
      exact herror

/-- Two doubles without a literal before a placeholder without a value: the prepared list cannot be
compiled, and the template fails at its end in one renderer and at the first double in the other. -/
theorem Value.compile_error_of_prepare_infinite :
    let items : Value := .sequence [.literal (.float 1.5), .literal (.float (-1 / 0)),
      .literal (.float (0 / 0))]
    let v : Value := .expression ⟨"? = :n", [items], []⟩
    let binds : List Literal := [.float 1.5, .float (-1 / 0), .float (0 / 0)]
    let e : RenderError := .missingNamed ":n" "? = :n"
    items.prepare (.builtin .generic) = .ok ⟨"?, ?, ?", binds⟩ ∧
      binds.findSome? Literal.nonFinite? = some (.infinite true) ∧
      items.compile (.builtin .generic) = .error (.nonFiniteFloat (.infinite true)) ∧
      v.prepare (.builtin .generic) = .error e ∧ v.trail.stop = some e ∧
      v.compile (.builtin .generic) = .error (.nonFiniteFloat (.infinite true)) := by
  intro items v binds e
  have hp : items.prepare (.builtin .generic) = .ok ⟨"?, ?, ?", binds⟩ := rfl
  have hv : v.prepare (.builtin .generic) = .error e := rfl
  have hx : binds.findSome? Literal.nonFinite? = some (.infinite true) := by decide
  obtain ⟨-, hfirst⟩ := (Value.compile_error_of_prepare (.builtin .generic) items).1 _ hp
  obtain ⟨hs, herror⟩ := (Value.compile_error_of_prepare (.builtin .generic) v).2 _ hv
  exact ⟨hp, hx, hfirst _ hx, hv, hs, herror⟩

end PortableSql
