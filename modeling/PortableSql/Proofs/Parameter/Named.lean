import PortableSql.Parameter.Node
import PortableSql.Proofs.Value.Keyed

/-!
# Named values of expressions

Named values are bound one after the other, each under the token of its name.

* **`Expression.WellNamed`**: tokens with the sign, in increasing order.
* `Expression.mem_bindAll`, `Expression.forall_bindAll`: the named values that are bound, and no
  others.
* **`Expression.WellNamed.bindAll`**: binding keeps the tokens in order.
* `Expression.bindAll_of_wellNamed`: values that are bound under their own tokens stand there.
-/

namespace PortableSql

namespace Expression

/-! ## What is bound -/

theorem bindAll_positional (e : Expression) (ns : List (String × Value)) :
    (e.bindAll ns).positional = e.positional := by
  induction ns generalizing e with
  | nil => rfl
  | cons p ns ih => exact ih (e.bindNamed p.1 p.2)

/-- Named values were there before or are bound. -/
theorem mem_bindAll {e : Expression} {ns : List (String × Value)} {p : String × Value}
    (h : p ∈ (e.bindAll ns).named) : p ∈ e.named ∨ ∃ q ∈ ns, p = (token q.1, q.2) := by
  induction ns generalizing e with
  | nil => exact .inl h
  | cons q ns ih =>
    rcases ih h with h | ⟨r, hr, hp⟩
    · rcases mem_insertKey h with rfl | h
      · exact .inr ⟨q, List.mem_cons_self, rfl⟩
      · exact .inl h
    · exact .inr ⟨r, List.mem_cons_of_mem q hr, hp⟩

/-- What holds of the values that a template is given holds of the values of the expression. -/
theorem forall_bindAll {P : Value → Prop} {positional : List Value}
    {named : List (String × Value)} (hpositional : ∀ v ∈ positional, P v)
    (hnamed : ∀ p ∈ named, P p.2) (template : String) :
    (∀ v ∈ ((withParameters template positional).bindAll named).positional, P v) ∧
      ∀ p ∈ ((withParameters template positional).bindAll named).named, P p.2 := by
  constructor
  · rw [bindAll_positional]
    exact hpositional
  · intro p hp
    rcases mem_bindAll hp with hp | ⟨q, hq, rfl⟩
    · cases hp
    · exact hnamed q hq

/-! ## Tokens -/

/-- **Named values as expressions hold them**: their tokens start with the sign and increase. -/
structure WellNamed (named : List (String × Value)) : Prop where
  increasing : Increasing named
  signs : ∀ p ∈ named, p.1.toList.head? = some sigil

theorem token_of_sign {name : String} (h : name.toList.head? = some sigil) : token name = name := by
  unfold token
  cases hn : name.toList with
  | nil =>
    rw [hn] at h
    cases h
  | cons c cs =>
    rw [hn] at h
    exact if_pos (Option.some.inj h)

theorem head?_token (name : String) : (token name).toList.head? = some sigil := by
  unfold token
  cases hn : name.toList with
  | nil => simp [String.toList_append]
  | cons c cs =>
    dsimp only
    split
    case isTrue hc => rw [hn, hc, List.head?_cons]
    case isFalse => simp [String.toList_append]

theorem wellNamed_withParameters {template : String} {positional : List Value} :
    WellNamed (withParameters template positional).named :=
  ⟨.nil, fun _ h => nomatch h⟩

theorem WellNamed.bindNamed {e : Expression} (h : WellNamed e.named) (name : String) (v : Value) :
    WellNamed (e.bindNamed name v).named where
  increasing := h.increasing.insertKey (token name) v
  signs p hp := by
    rcases mem_insertKey hp with rfl | hp
    · exact head?_token name
    · exact h.signs p hp

/-- **Binding keeps the tokens in order.** -/
theorem WellNamed.bindAll {e : Expression} (h : WellNamed e.named) (ns : List (String × Value)) :
    WellNamed (e.bindAll ns).named := by
  induction ns generalizing e with
  | nil => exact h
  | cons p ns ih => exact ih (h.bindNamed p.1 p.2)

/-- Values beyond the tokens that are bound stand after them. -/
theorem bindAll_append {e : Expression} {ns : List (String × Value)}
    (h : WellNamed (e.named ++ ns)) : e.bindAll ns = { e with named := e.named ++ ns } := by
  induction ns generalizing e with
  | nil =>
    obtain ⟨template, positional, named⟩ := e
    rw [List.append_nil]
    rfl
  | cons p ns ih =>
    have htoken : token p.1 = p.1 := token_of_sign (h.signs p (by simp))
    have hlast : ∀ q ∈ e.named, q.1 < p.1 := fun q hq =>
      (List.pairwise_append.mp h.increasing).2.2 q hq p List.mem_cons_self
    have hbind : e.bindNamed p.1 p.2 = { e with named := e.named ++ [p] } := by
      rw [bindNamed, htoken, insertKey_of_forall_lt p.2 hlast]
    have hrest := ih (e := { e with named := e.named ++ [p] }) (by simpa using h)
    calc e.bindAll (p :: ns) = (e.bindNamed p.1 p.2).bindAll ns := rfl
      _ = { e with named := e.named ++ (p :: ns) } := by simpa [hbind] using hrest

/-- Values that are bound under their own tokens, in order, stand there. -/
theorem bindAll_of_wellNamed {ns : List (String × Value)} (h : WellNamed ns) (template : String)
    (positional : List Value) :
    (withParameters template positional).bindAll ns = ⟨template, positional, ns⟩ :=
  bindAll_append (e := withParameters template positional) h

end Expression

end PortableSql
