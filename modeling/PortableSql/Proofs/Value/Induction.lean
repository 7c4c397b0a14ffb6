import Mathlib.Data.List.Forall2
import PortableSql.Value

/-!
# Induction on values

* **`Value.induct`**: induction on values with a case for each constructor, in which the items of
  a sequence and the positional and named values of an expression have the property.
* `eq_map_of_cons`: what is computed for lists of values element by element.
* `lookup_map_values`, `mem_of_lookup`: looking up a token among named values.
* `exists_forall₂`: lists that are related element by element.
* `bind_eq_ok_iff`, `eq_ok_iff_forall₂_of_cons`: computations that succeed step by step, and element
  by element.
-/

namespace PortableSql

/-- **Induction on values.** -/
@[elab_as_elim, induction_eliminator]
theorem Value.induct {P : Value → Prop} (literal : ∀ l, P (.literal l))
    (identifier : ∀ n, P (.identifier n)) (column : ∀ n, P (.column n)) (table : ∀ n, P (.table n))
    (sequence : ∀ items, (∀ v ∈ items, P v) → P (.sequence items))
    (expression : ∀ template positional named, (∀ v ∈ positional, P v) →
      (∀ p ∈ named, P p.2) → P (.expression ⟨template, positional, named⟩)) (v : Value) : P v := by
  refine @Value.rec P (fun e => P (.expression e)) (fun vs => ∀ v ∈ vs, P v)
    (fun ps => ∀ p ∈ ps, P p.2) (fun p => P p.2) literal identifier column table sequence
    (fun _ h => h) expression ?_ ?_ ?_ ?_ (fun _ _ h => h) v
  · exact fun _ h => nomatch h
  · exact fun _ _ hv hvs => List.forall_mem_cons.mpr ⟨hv, hvs⟩
  · exact fun _ h => nomatch h
  · exact fun _ _ hp hps => List.forall_mem_cons.mpr ⟨hp, hps⟩

/-- A function that treats the elements of a list one by one maps them. -/
theorem eq_map_of_cons {α β : Type} {f : α → β} {g : List α → List β} (hnil : g [] = [])
    (hcons : ∀ a as, g (a :: as) = f a :: g as) (as : List α) : g as = as.map f := by
  induction as with
  | nil => exact hnil
  | cons a as ih => rw [hcons, ih, List.map_cons]

theorem lookup_map_values {α β : Type} (f : α → β) (token : String) (ps : List (String × α)) :
    (ps.map fun p => (p.1, f p.2)).lookup token = (ps.lookup token).map f := by
  induction ps with
  | nil => rfl
  | cons p ps ih =>
    rw [List.map_cons, List.lookup_cons, List.lookup_cons, ih]
    cases token == p.1 <;> rfl

theorem mem_of_lookup {α : Type} {token : String} {ps : List (String × α)} {v : α}
    (h : ps.lookup token = some v) : (token, v) ∈ ps := by
  obtain ⟨before, after, rfl, -⟩ := List.lookup_eq_some_iff.mp h
  exact List.mem_append_right before List.mem_cons_self

theorem exists_forall₂ {α β : Type} {R : α → β → Prop} {as : List α} (h : ∀ a ∈ as, ∃ b, R a b) :
    ∃ bs, List.Forall₂ R as bs := by
  induction as with
  | nil => exact ⟨[], .nil⟩
  | cons a as ih =>
    obtain ⟨ha, has⟩ := List.forall_mem_cons.mp h
    obtain ⟨b, hb⟩ := ha
    obtain ⟨bs, hbs⟩ := ih has
    exact ⟨b :: bs, .cons hb hbs⟩

/-- A computation succeeds if its first step and the rest do. -/
theorem bind_eq_ok_iff {ε α β : Type} {x : Except ε α} {f : α → Except ε β} {b : β} :
    x >>= f = .ok b ↔ ∃ a, x = .ok a ∧ f a = .ok b := by
  cases x with
  | error e => exact ⟨fun h => (nomatch h), fun ⟨_, h, _⟩ => (nomatch h)⟩
  | ok a => exact ⟨fun h => ⟨a, rfl, h⟩, fun ⟨_, ha, h⟩ => Except.ok.inj ha ▸ h⟩

/-- What is computed for lists element by element succeeds if it does for each element. -/
theorem eq_ok_iff_forall₂_of_cons {ε α β : Type} {f : α → Except ε β}
    {g : List α → Except ε (List β)} (hnil : g [] = .ok [])
    (hcons : ∀ a as, g (a :: as) = do
      let b ← f a
      return b :: (← g as)) {as : List α} {bs : List β} :
    g as = .ok bs ↔ List.Forall₂ (fun a b => f a = .ok b) as bs := by
  induction as generalizing bs with
  | nil =>
    rw [List.forall₂_nil_left_iff, hnil, Except.ok.injEq]
    exact eq_comm
  | cons a as ih =>
    simp only [hcons, bind_eq_ok_iff, List.forall₂_cons_left_iff, ih]
    constructor
    · rintro ⟨b, hb, bs, hbs, h⟩
      exact ⟨b, bs, hb, hbs, (Except.ok.inj h).symm⟩
    · rintro ⟨b, bs, hb, hbs, rfl⟩
      exact ⟨b, hb, bs, hbs, rfl⟩

end PortableSql
