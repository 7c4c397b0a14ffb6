import PortableSql.Proofs.Render.Contents
import PortableSql.Proofs.Render.Pieces

/-!
# Values taken by position only

How a template without named placeholders ends can be told from two numbers and from the values that
are reached before the shorter of the two runs out.

* `Template.mismatch?`: the error of unequal numbers of placeholders and values.
* **`countedError?`**: the error of the first value that fails among those taken, or else the
  mismatch.
* `Expression.leftmost?_of_unnamed`: the leftmost piece that fails, if no piece has a name.
* **`Value.FailsCounted`**, `Value.failsCounted`: both renderers fail in this way.
* `Value.FailsCounted.iff`: they fail just when the numbers differ or a value fails.
-/

namespace PortableSql

variable {α : Type}

/-! ## Counted errors -/

/-- **The error of unequal numbers** of positional placeholders and values. -/
def Template.mismatch? (template : String) (places supplied : Nat) : Option RenderError :=
  if supplied < places then some (.missingPositional supplied template)
  else if places < supplied then some (.unusedPositional places supplied template)
  else none

theorem Template.mismatch?_eq_none {template : String} {places supplied : Nat} :
    mismatch? template places supplied = none ↔ places = supplied := by
  rw [mismatch?]
  split_ifs <;> simp <;> omega

/-- **The error of a template that takes values by position only**: that of the first value that
fails among those that are taken, or else the mismatch of the two numbers. -/
def countedError? (f : Value → Except RenderError α) (template : String) (places : Nat)
    (vs : List Value) : Option RenderError :=
  (firstError? f (vs.take places)).or (Template.mismatch? template places vs.length)

theorem firstError?_eq_none {f : Value → Except RenderError α} {vs : List Value} :
    firstError? f vs = none ↔ ∀ v ∈ vs, ∃ a, f v = .ok a := by
  rw [firstError?, List.findSome?_eq_none_iff]
  refine forall₂_congr fun v _ => ?_
  cases f v <;> simp

/-- There is no error just when the numbers are equal and every value renders. -/
theorem countedError?_eq_none {f : Value → Except RenderError α} {template : String} {places : Nat}
    {vs : List Value} :
    countedError? f template places vs = none ↔
      places = vs.length ∧ ∀ v ∈ vs, ∃ a, f v = .ok a := by
  rw [countedError?, Option.or_eq_none_iff, firstError?_eq_none, Template.mismatch?_eq_none,
    and_comm]
  refine and_congr_right fun h => ?_
  rw [h, List.take_length]

/-! ## Pieces without names -/

namespace Expression

variable {e : Expression} {f : Value → Except RenderError α}

/-- **The leftmost piece that fails, if no piece has a name**: the placeholder of the first value
that fails, or else the first one that no value is left for. -/
theorem leftmost?_of_unnamed (ps before : List Piece) (hps : ∀ token, .named token ∉ ps)
    (hb : before.count .positional ≤ e.positional.length) :
    e.leftmost? f (Template.placesFrom before ps) =
      (firstError? f
        ((e.positional.drop (before.count .positional)).take (ps.count .positional))).or
        (if e.positional.length < before.count .positional + ps.count .positional then
          some (.missingPositional e.positional.length e.template) else none) := by
  induction ps generalizing before with
  | nil =>
    rw [List.count_nil, List.take_zero, Nat.add_zero, if_neg (Nat.not_lt_of_le hb)]
    rfl
  | cons p ps ih =>
    have hrest : ∀ token, .named token ∉ ps := fun token h => hps token (List.mem_cons_of_mem p h)
    rw [Template.placesFrom, leftmost?_cons]
    cases p with
    | text s =>
      have h := ih (before ++ [.text s]) hrest (by simpa using hb)
      simp only [List.count_append, List.count_singleton] at h
      exact h
    | named token => exact absurd List.mem_cons_self (hps token)
    | positional =>
      rw [List.count_cons_self]
      cases hv : e.positional[before.count .positional]? with
      | none =>
        have hle := List.getElem?_eq_none_iff.mp hv
        rw [faultAt?_positional, hv, List.drop_of_length_le hle, List.take_nil,
          if_pos (by omega)]
        rfl
      | some v =>
        have hfault : e.faultAt? f before .positional = RenderError.of? (f v) := by
          rw [faultAt?_positional, hv]
        obtain ⟨hlt, hget⟩ := List.getElem?_eq_some_iff.mp hv
        have h := ih (before ++ [.positional]) hrest (by simpa using Nat.succ_le_of_lt hlt)
        rw [List.count_append, List.count_singleton_self, Nat.add_right_comm] at h
        rw [hfault, List.drop_eq_getElem_cons hlt, hget, List.take_succ_cons, firstError?_cons, h,
          ← Nat.add_assoc]
        cases f v <;> rfl

theorem fault?_of_unnamed (h : ∀ token, .named token ∉ Template.split e.template) :
    e.fault? f =
      (firstError? f
        (e.positional.take ((Template.split e.template).count .positional))).or
        (if e.positional.length < (Template.split e.template).count .positional then
          some (.missingPositional e.positional.length e.template) else none) := by
  have hleftmost := leftmost?_of_unnamed (e := e) (f := f) _ [] h (Nat.zero_le _)
  rwa [List.count_nil, List.drop_zero, Nat.zero_add] at hleftmost

/-- What ends in this way fails with the counted error. -/
theorem Ends.eq_error_iff {places : Nat} {r : Except RenderError α} {β : Type}
    {f : Value → Except RenderError β}
    (h : e.Ends ((firstError? f (e.positional.take places)).or
      (if e.positional.length < places then
        some (.missingPositional e.positional.length e.template) else none)) places r)
    (err : RenderError) :
    r = .error err ↔ countedError? f e.template places e.positional = some err := by
  have herror {err' : RenderError} (hr : r = .error err') : r = .error err ↔ some err' = some err :=
    by rw [hr, Except.error.injEq, Option.some.injEq]
  rw [countedError?, Template.mismatch?]
  cases hf : firstError? f (e.positional.take places) with
  | some err' =>
    rw [hf] at h
    exact herror h
  | none =>
    rw [hf, Option.none_or] at h
    rw [Option.none_or]
    split_ifs at h ⊢ with hmissing hunused
    · exact herror h
    · obtain ⟨-, h⟩ := h
      exact herror ((if_pos hunused).mp h)
    · obtain ⟨-, h⟩ := h
      obtain ⟨a, rfl⟩ := (if_neg hunused).mp h
      constructor <;> rintro ⟨⟩

end Expression

/-! ## The two renderers -/

/-- **Both renderers fail with the counted error** of a template with `places` placeholders. -/
structure Value.FailsCounted (v : Value) (template : String) (places : Nat) (vs : List Value) :
    Prop where
  compile : ∀ d e, v.compile d = .error e ↔ countedError? (Value.compile d) template places vs =
    some e
  prepare : ∀ d e, v.prepare d = .error e ↔ countedError? (Value.prepare d) template places vs =
    some e

/-- A renderer fails with the counted error of a template without named placeholders. Without
values the template is written as it stands, so it must have no placeholder then. -/
theorem Renders.eq_error_iff_counted {d : Dialect} {S : Scribe (Except RenderError)}
    {render : Value → Except RenderError String} (hr : Renders d S render) {template : String}
    {vs : List Value} (hnamed : ∀ token, .named token ∉ Template.split template)
    (hnil : vs = [] → (Template.split template).count .positional = 0) (e : RenderError) :
    render (.expression (.withParameters template vs)) = .error e ↔
      countedError? render template ((Template.split template).count .positional) vs =
        some e := by
  cases vs with
  | nil =>
    rw [Expression.withParameters, hr.expression, if_pos (by rfl), hnil rfl]
    constructor <;> rintro ⟨⟩
  | cons v vs =>
    let filled : Expression := .withParameters template (v :: vs)
    have hends := hr.ends (e := filled) rfl
    have hfault := Expression.fault?_of_unnamed (e := filled) (f := render) hnamed
    rw [hfault] at hends
    exact hends.eq_error_iff e

/-- **A template without named placeholders fails with its counted error.** -/
theorem Value.failsCounted {template : String} {vs : List Value}
    (hnamed : ∀ token, .named token ∉ Template.split template)
    (hnil : vs = [] → (Template.split template).count .positional = 0) :
    (Value.expression (.withParameters template vs)).FailsCounted template
      ((Template.split template).count .positional) vs where
  compile d e := (renders_compile d).eq_error_iff_counted hnamed hnil e
  prepare d e := by
    rw [prepare_eq_error_iff_marking, (renders_perform d marking).eq_error_iff_counted hnamed hnil,
      countedError?, countedError?, firstError?_congr fun _ _ => prepare_eq_error_iff_marking.symm]

namespace Value.FailsCounted

variable {v : Value} {template : String} {places : Nat} {vs : List Value}

/-- An outcome fails if it has one of the errors that it may have. -/
theorem exists_error_iff {β : Type} {f : Value → Except RenderError α}
    {r : Except RenderError β}
    (h : ∀ e, r = .error e ↔ countedError? f template places vs = some e) :
    (∃ e, r = .error e) ↔ places ≠ vs.length ∨ ∃ w ∈ vs, ∃ e, f w = .error e := by
  have hvalue (w : Value) : (¬∃ a, f w = .ok a) ↔ ∃ e, f w = .error e := by
    cases f w <;> simp
  rw [exists_congr h, ← Option.isSome_iff_exists, Option.isSome_iff_ne_none, ne_eq,
    countedError?_eq_none, not_and_or]
  simp only [not_forall, hvalue, exists_prop, ne_eq]

/-- **Both fail just when the numbers differ or a value fails.** -/
theorem iff (h : v.FailsCounted template places vs) (d : Dialect) :
    ((∃ e, v.compile d = .error e) ↔
        places ≠ vs.length ∨ ∃ w ∈ vs, ∃ e, w.compile d = .error e) ∧
      ((∃ e, v.prepare d = .error e) ↔
        places ≠ vs.length ∨ ∃ w ∈ vs, ∃ e, w.prepare d = .error e) :=
  ⟨exists_error_iff (h.compile d), exists_error_iff (h.prepare d)⟩

end Value.FailsCounted

end PortableSql
