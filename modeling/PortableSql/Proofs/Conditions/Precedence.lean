import PortableSql.Proofs.Conditions.ColumnTest

/-!
# Chains in chains and the precedence of connectives

A nested chain is written without parentheses of its own. Read as SQL, where `AND` binds tighter
than `OR`, its terms stand among those around it, while a group remains one operand.

* **`Term.chainFormula`**: the formula of a chain when groups and nested chains are single operands.
* **`Term.spliceAll`**: the terms of nested chains among those around them.
* `Term.condition?_spliceAll`: the formula that the text of a chain is read as.
* `Term.allApart`, **`Term.eval_spliceAll`**: chains in which nested chains are single operands all
  the same, since none with an `OR` stands beside an `AND`.
* **`Conditions.condition?_nested`**: what the compiled text of a chain means.
-/

namespace PortableSql.Conditions

variable {d : Dialect}

namespace Term

/-! ## Formulas -/

mutual

/-- The formula of a term. -/
def formula : Term d → Formula
  | .predicate _ p => .atom p.atom
  | .group _ terms => chainFormula terms
  | .nested _ terms => chainFormula terms

/-- **The formula of a chain** in which groups and nested chains are single operands. -/
def chainFormula : List (Term d) → Formula
  | [] => .atom []
  | t :: ts => t.formula.joined (restFormulas ts)

/-- The formulas of terms that follow another one, with their connectives. -/
def restFormulas : List (Term d) → List (Connective × Formula)
  | [] => []
  | t :: ts => (t.logic.connective, t.formula) :: restFormulas ts

end

theorem restFormulas_eq_map (ts : List (Term d)) :
    restFormulas ts = ts.map fun t => (t.logic.connective, t.formula) := by
  induction ts with
  | nil => rfl
  | cons t ts ih => rw [restFormulas, ih, List.map_cons]

/-! ## Splicing -/

/-- The term after another connective. -/
def withLogic (l : Logic) : Term d → Term d
  | .predicate _ p => .predicate l p
  | .group _ terms => .group l terms
  | .nested _ terms => .nested l terms

/-- The terms with another connective before the first one. -/
def relabel (l : Logic) : List (Term d) → List (Term d)
  | [] => []
  | t :: ts => t.withLogic l :: ts

mutual

/-- The term in its chain: a nested chain is replaced by its terms. -/
def splice : Term d → List (Term d)
  | .predicate l p => [.predicate l p]
  | .group l terms => [.group l (spliceAll terms)]
  | .nested l terms => relabel l (spliceAll terms)

/-- **The terms with those of nested chains in place of them**, also in groups. -/
def spliceAll : List (Term d) → List (Term d)
  | [] => []
  | t :: ts => t.splice ++ spliceAll ts

end

@[simp]
theorem logic_withLogic (l : Logic) (t : Term d) : (t.withLogic l).logic = l := by
  cases t <;> rfl

@[simp]
theorem text_withLogic (l : Logic) (t : Term d) : (t.withLogic l).text = t.text := by
  cases t <;> rfl

@[simp]
theorem formula_withLogic (l : Logic) (t : Term d) : (t.withLogic l).formula = t.formula := by
  cases t <;> rfl

/-- A filled term is at least one term in its chain, and keeps its connective. -/
theorem exists_splice (t : Term d) (h : t.filled = true) :
    ∃ u us, t.splice = u :: us ∧ u.logic = t.logic := by
  induction t using Term.induct with
  | predicate l p => exact ⟨.predicate l p, [], rfl, rfl⟩
  | group l terms => exact ⟨.group l (spliceAll terms), [], rfl, rfl⟩
  | nested l terms ih =>
    obtain ⟨hne, hterms⟩ := filled_group h
    obtain ⟨t, ts, rfl⟩ := List.exists_cons_of_ne_nil hne
    obtain ⟨u, us, hu, -⟩ := ih t List.mem_cons_self (allFilled_iff.mp hterms t List.mem_cons_self)
    refine ⟨u.withLogic l, us ++ spliceAll ts, ?_, logic_withLogic l u⟩
    rw [splice, spliceAll, hu]
    rfl

theorem mem_spliceAll {u : Term d} {ts : List (Term d)} :
    u ∈ spliceAll ts ↔ ∃ t ∈ ts, u ∈ t.splice := by
  induction ts with
  | nil => simp [spliceAll]
  | cons t ts ih => simp [spliceAll, ih]

theorem spliceAll_ne_nil {ts : List (Term d)} (hne : ts ≠ []) (h : allFilled ts = true) :
    spliceAll ts ≠ [] := by
  obtain ⟨t, rest, rfl⟩ := List.exists_cons_of_ne_nil hne
  obtain ⟨u, us, hu, -⟩ := t.exists_splice (allFilled_iff.mp h t List.mem_cons_self)
  rw [spliceAll, hu]
  exact List.cons_ne_nil _ _

/-! ### Splicing leaves the text as it is -/

theorem restText_append (ts us : List (Term d)) :
    restText (ts ++ us) = restText ts ++ restText us := by
  induction ts with
  | nil => exact String.empty_append.symm
  | cons t ts ih => simp only [List.cons_append, restText, ih, String.append_assoc]

theorem chainText_relabel (l : Logic) (ts : List (Term d)) :
    chainText (relabel l ts) = chainText ts := by
  cases ts with
  | nil => rfl
  | cons t ts => rw [relabel, chainText, text_withLogic, chainText]

/-- The text of terms that follow another one is that of their chain after the connective. -/
theorem restText_eq {ts : List (Term d)} {l : Logic} (h : ∃ u us, ts = u :: us ∧ u.logic = l) :
    restText ts = " " ++ (l.connective.keyword ++ (" " ++ chainText ts)) := by
  obtain ⟨u, us, rfl, rfl⟩ := h
  rw [restText, chainText]

theorem restText_spliceAll {ts : List (Term d)}
    (h : ∀ t ∈ ts, t.filled = true ∧ chainText t.splice = t.text) :
    restText (spliceAll ts) = restText ts := by
  induction ts with
  | nil => rfl
  | cons t ts ih =>
    obtain ⟨⟨hfilled, htext⟩, hrest⟩ := List.forall_mem_cons.mp h
    rw [spliceAll, restText_append, ih hrest, restText_eq (t.exists_splice hfilled), htext,
      restText]
    simp only [String.append_assoc]

theorem chainText_spliceAll_of {ts : List (Term d)}
    (h : ∀ t ∈ ts, t.filled = true ∧ chainText t.splice = t.text) :
    chainText (spliceAll ts) = chainText ts := by
  cases ts with
  | nil => rfl
  | cons t ts =>
    obtain ⟨⟨hfilled, htext⟩, hrest⟩ := List.forall_mem_cons.mp h
    obtain ⟨u, us, hu, -⟩ := t.exists_splice hfilled
    rw [hu, chainText] at htext
    rw [spliceAll, hu, List.cons_append, chainText, restText_append, restText_spliceAll hrest,
      ← String.append_assoc, htext, chainText]

theorem chainText_splice (t : Term d) (h : t.filled = true) : chainText t.splice = t.text := by
  induction t using Term.induct with
  | predicate l p => exact String.append_empty
  | group l terms ih =>
    obtain ⟨-, hterms⟩ := filled_group h
    have hmem := allFilled_iff.mp hterms
    rw [splice, chainText, restText, String.append_empty, text, text,
      chainText_spliceAll_of fun t ht => ⟨hmem t ht, ih t ht (hmem t ht)⟩]
  | nested l terms ih =>
    obtain ⟨-, hterms⟩ := filled_group h
    have hmem := allFilled_iff.mp hterms
    rw [splice, chainText_relabel, text,
      chainText_spliceAll_of fun t ht => ⟨hmem t ht, ih t ht (hmem t ht)⟩]

theorem chainText_spliceAll {ts : List (Term d)} (h : allFilled ts = true) :
    chainText (spliceAll ts) = chainText ts :=
  chainText_spliceAll_of fun t ht =>
    ⟨allFilled_iff.mp h t ht, t.chainText_splice (allFilled_iff.mp h t ht)⟩

/-! ## Reading -/

theorem readsAs_relabel {l : Logic} {ts : List (Term d)}
    (h : ∀ t ∈ ts, d.ReadsAs t.text t.formula) :
    ∀ t ∈ relabel l ts, d.ReadsAs t.text t.formula := by
  cases ts with
  | nil => exact h
  | cons t ts =>
    obtain ⟨ht, hts⟩ := List.forall_mem_cons.mp h
    refine List.forall_mem_cons.mpr ⟨?_, hts⟩
    rwa [text_withLogic, formula_withLogic]

section

variable (hd : d.Separates)

include hd

/-- Terms that are single operands are read as the formula of their chain. -/
theorem condition?_chainText {ts : List (Term d)} (hne : ts ≠ [])
    (h : ∀ t ∈ ts, d.ReadsAs t.text t.formula) :
    d.condition? (chainText ts) = some (chainFormula ts) := by
  obtain ⟨t, rest, rfl⟩ := List.exists_cons_of_ne_nil hne
  obtain ⟨ht, hrest⟩ := List.forall_mem_cons.mp h
  have htext : restText rest = joinedText (rest.map fun u => (u.logic.connective, u.text)) := by
    clear h hne hrest
    induction rest with
    | nil => rfl
    | cons u rest ih => rw [restText, ih, List.map_cons, joinedText]
  have hparts : ∀ x ∈ rest.map fun u => (u.logic.connective, u.text, u.formula),
      d.ReadsAs x.2.1 x.2.2 := by
    intro x hx
    obtain ⟨u, hu, rfl⟩ := List.mem_map.mp hx
    exact hrest u hu
  have hread := Dialect.condition?_joined hd ht hparts
  rw [List.map_map, List.map_map] at hread
  rw [chainText, htext, chainFormula, restFormulas_eq_map]
  exact hread

/-- After splicing every term is a single operand. -/
theorem readsAs_splice (t : Term d) (h : t.filled = true) :
    ∀ u ∈ t.splice, d.ReadsAs u.text u.formula := by
  have hall {terms : List (Term d)} (hterms : allFilled terms = true)
      (ih : ∀ t ∈ terms, t.filled = true → ∀ u ∈ t.splice, d.ReadsAs u.text u.formula) :
      ∀ u ∈ spliceAll terms, d.ReadsAs u.text u.formula := by
    intro u hu
    obtain ⟨t, ht, hut⟩ := mem_spliceAll.mp hu
    exact ih t ht (allFilled_iff.mp hterms t ht) u hut
  induction t using Term.induct with
  | predicate l p =>
    rw [splice, List.forall_mem_singleton]
    exact Dialect.readsAs_of_condition?_atom p.condition_eq
  | group l terms ih =>
    obtain ⟨hne, hterms⟩ := filled_group h
    rw [splice, List.forall_mem_singleton]
    exact Dialect.readsAs_group hd
      (condition?_chainText hd (spliceAll_ne_nil hne hterms) (hall hterms ih))
  | nested l terms ih =>
    obtain ⟨-, hterms⟩ := filled_group h
    exact readsAs_relabel (hall hterms ih)

/-- **The text of a chain is read as its spliced terms.** -/
theorem condition?_spliceAll {ts : List (Term d)} (hne : ts ≠ []) (h : allFilled ts = true) :
    d.condition? (chainText ts) = some (chainFormula (spliceAll ts)) := by
  rw [← chainText_spliceAll h]
  refine condition?_chainText hd (spliceAll_ne_nil hne h) fun u hu => ?_
  obtain ⟨t, ht, hut⟩ := mem_spliceAll.mp hu
  exact readsAs_splice hd t (allFilled_iff.mp h t ht) u hut

end

/-! ## Nested chains that are single operands all the same -/

/-- A nested chain with an `OR` between its terms. -/
def loose : Term d → Bool
  | .nested _ terms => (spliceAll terms).tail.any fun t => t.logic.connective = .or
  | _ => false

/-- A term may stand before another one: there is no `AND` between them, or none of them is a nested
chain with an `OR`. -/
def meets (t u : Term d) : Bool := u.logic.connective = .or || !t.loose && !u.loose

mutual

/-- No nested chain with an `OR` stands beside an `AND` in the term. -/
def apart : Term d → Bool
  | .predicate _ _ => true
  | .group _ terms => allApart terms
  | .nested _ terms => allApart terms

/-- **No nested chain with an `OR` stands beside an `AND`.** -/
def allApart : List (Term d) → Bool
  | [] => true
  | t :: ts => t.apart && ts.head?.all t.meets && allApart ts

end

theorem allApart_cons {t : Term d} {ts : List (Term d)} (h : allApart (t :: ts) = true) :
    t.apart = true ∧ ts.head?.all t.meets = true ∧ allApart ts = true := by
  rw [allApart, Bool.and_eq_true, Bool.and_eq_true] at h
  exact ⟨h.1.1, h.1.2, h.2⟩

/-- A loose term may stand after another one only with an `OR` between them. -/
theorem or_of_meets {t : Term d} {ts : List (Term d)} (h : ts.head?.all t.meets = true) :
    ∀ u ∈ ts.head?, u.loose = true → u.logic.connective = .or := by
  intro u hu hloose
  rw [hu] at h
  simpa [meets, hloose] using h

section

variable (ρ : List Node → Bool)

/-- The value of a term after its connective. -/
def valued (t : Term d) : Connective × Bool := (t.logic.connective, t.formula.eval ρ)

theorem eval_chainFormula (t : Term d) (ts : List (Term d)) :
    (chainFormula (t :: ts)).eval ρ = joinedValue (t.formula.eval ρ) (ts.map (valued ρ)) := by
  rw [chainFormula, Formula.eval_joined, restFormulas_eq_map, List.map_map]
  rfl

theorem chainFormula_relabel (l : Logic) (ts : List (Term d)) :
    chainFormula (relabel l ts) = chainFormula ts := by
  cases ts with
  | nil => rfl
  | cons t ts => rw [relabel, chainFormula, formula_withLogic, chainFormula]

/-- A term that is not loose has only `AND`s between its spliced terms. -/
theorem forall_tail_splice {t : Term d} (h : t.loose = false) :
    ∀ x ∈ t.splice.tail.map (valued ρ), x.1 = .and := by
  intro x hx
  obtain ⟨u, hu, rfl⟩ := List.mem_map.mp hx
  cases t with
  | predicate l p => cases hu
  | group l terms => cases hu
  | nested l terms =>
    have htail : (relabel l (spliceAll terms)).tail = (spliceAll terms).tail := by
      cases spliceAll terms <;> rfl
    rw [splice, htail] at hu
    have hne := List.any_eq_false.mp h u hu
    change u.logic.connective = .and
    cases hc : u.logic.connective with
    | and => rfl
    | or => simp [hc] at hne

/-- After a loose term in front of spliced ones there is an `OR`. -/
theorem head?_spliceAll {t : Term d} {ts : List (Term d)} (hfilled : allFilled ts = true)
    (hmeets : ts.head?.all t.meets = true) (hloose : t.loose = true) :
    ∀ y ∈ ((spliceAll ts).map (valued ρ)).head?, y.1 = .or := by
  cases ts with
  | nil => exact fun y hy => nomatch hy
  | cons u ts =>
    obtain ⟨v, vs, hv, hlogic⟩ := u.exists_splice (allFilled_iff.mp hfilled u List.mem_cons_self)
    have hor : u.logic.connective = .or := by simpa [meets, hloose] using hmeets
    rw [spliceAll, hv]
    rintro _ ⟨⟩
    exact (congrArg Logic.connective hlogic).trans hor

/-- The spliced terms of a term have only `AND`s between them, or an `OR` after them. -/
theorem tail_splice {t u : Term d} {us ts : List (Term d)} (hu : t.splice = u :: us)
    (hfilled : allFilled ts = true) (hmeets : ts.head?.all t.meets = true) :
    (∀ x ∈ us.map (valued ρ), x.1 = .and) ∨
      t.loose = true ∧ ∀ y ∈ ((spliceAll ts).map (valued ρ)).head?, y.1 = .or := by
  cases hloose : t.loose with
  | false =>
    have h := forall_tail_splice ρ hloose
    rw [hu] at h
    exact .inl h
  | true => exact .inr ⟨rfl, head?_spliceAll ρ hfilled hmeets hloose⟩

/-- Terms that follow another one have the same value when they are spliced, if each of them has. -/
theorem joinedValue_spliceAll {ts : List (Term d)} (hfilled : allFilled ts = true)
    (hapart : allApart ts = true)
    (hsame : ∀ t ∈ ts, (chainFormula t.splice).eval ρ = t.formula.eval ρ)
    (hfirst : ∀ t ∈ ts.head?, t.loose = true → t.logic.connective = .or) (b : Bool) :
    joinedValue b ((spliceAll ts).map (valued ρ)) = joinedValue b (ts.map (valued ρ)) := by
  induction ts generalizing b with
  | nil => rfl
  | cons t ts ih =>
    obtain ⟨ht, hts⟩ := List.forall_mem_cons.mp hsame
    obtain ⟨hft, hfts⟩ := List.forall_mem_cons.mp (allFilled_iff.mp hfilled)
    obtain ⟨-, hmeets, hrest⟩ := allApart_cons hapart
    obtain ⟨u, us, hu, hlogic⟩ := t.exists_splice hft
    have htail := (tail_splice ρ hu (allFilled_iff.mpr hfts) hmeets).imp_right
      fun h => And.intro (hfirst t rfl h.1) h.2
    have hih := ih (allFilled_iff.mpr hfts) hrest hts (or_of_meets hmeets)
    have hsplit : (spliceAll (t :: ts)).map (valued ρ) =
        (t.logic.connective, u.formula.eval ρ) ::
          (us.map (valued ρ) ++ (spliceAll ts).map (valued ρ)) := by
      rw [spliceAll, hu, List.map_append, List.map_cons, ← hlogic]
      rfl
    rw [hu, eval_chainFormula] at ht
    rw [hsplit, joinedValue_cons_append htail, ht, List.map_cons, valued]
    cases t.logic.connective with
    | and => exact hih _
    | or => exact congrArg (b || ·) (hih _)

theorem eval_spliceAll_of {ts : List (Term d)} (hfilled : allFilled ts = true)
    (hapart : allApart ts = true)
    (hsame : ∀ t ∈ ts, (chainFormula t.splice).eval ρ = t.formula.eval ρ) :
    (chainFormula (spliceAll ts)).eval ρ = (chainFormula ts).eval ρ := by
  cases ts with
  | nil => rfl
  | cons t ts =>
    obtain ⟨ht, hts⟩ := List.forall_mem_cons.mp hsame
    obtain ⟨hft, hfts⟩ := List.forall_mem_cons.mp (allFilled_iff.mp hfilled)
    obtain ⟨-, hmeets, hrest⟩ := allApart_cons hapart
    obtain ⟨u, us, hu, -⟩ := t.exists_splice hft
    have htail := tail_splice ρ hu (allFilled_iff.mpr hfts) hmeets
    rw [hu, eval_chainFormula] at ht
    rw [spliceAll, hu, List.cons_append, eval_chainFormula, List.map_append,
      joinedValue_append (htail.imp_right And.right), ht, eval_chainFormula]
    exact joinedValue_spliceAll ρ (allFilled_iff.mpr hfts) hrest hts (or_of_meets hmeets) _

theorem apart_of_mem {t : Term d} {ts : List (Term d)} (h : allApart ts = true) (ht : t ∈ ts) :
    t.apart = true := by
  induction ts with
  | nil => cases ht
  | cons u ts ih =>
    obtain ⟨hu, -, hrest⟩ := allApart_cons h
    rcases List.mem_cons.mp ht with rfl | ht
    · exact hu
    · exact ih hrest ht

theorem eval_splice (t : Term d) (hfilled : t.filled = true) (hapart : t.apart = true) :
    (chainFormula t.splice).eval ρ = t.formula.eval ρ := by
  induction t using Term.induct with
  | predicate l p => rfl
  | group l terms ih =>
    obtain ⟨-, hterms⟩ := filled_group hfilled
    exact eval_spliceAll_of ρ hterms hapart fun t ht =>
      ih t ht (allFilled_iff.mp hterms t ht) (apart_of_mem hapart ht)
  | nested l terms ih =>
    obtain ⟨-, hterms⟩ := filled_group hfilled
    rw [splice, chainFormula_relabel]
    exact eval_spliceAll_of ρ hterms hapart fun t ht =>
      ih t ht (allFilled_iff.mp hterms t ht) (apart_of_mem hapart ht)

/-- **Where no nested chain with an `OR` stands beside an `AND`, splicing keeps the value.** -/
theorem eval_spliceAll {ts : List (Term d)} (hfilled : allFilled ts = true)
    (hapart : allApart ts = true) :
    (chainFormula (spliceAll ts)).eval ρ = (chainFormula ts).eval ρ :=
  eval_spliceAll_of ρ hfilled hapart fun t ht =>
    t.eval_splice ρ (allFilled_iff.mp hfilled t ht) (apart_of_mem hapart ht)

end

end Term

/-- **What the compiled text of a chain means**: nested chains are written without parentheses, so
that their terms stand among those around them, while groups remain single operands. Nested chains
are single operands too where none with an `OR` stands beside an `AND`. -/
theorem condition?_nested (hd : d.Separates) {calls : List (NestedCall d)} (hne : terms calls ≠ [])
    (hfilled : Term.allFilled (terms calls) = true) :
    ∃ text, (run empty (steps calls)).toValue.compile d = .ok text ∧
      d.condition? text = some (Term.chainFormula (Term.spliceAll (terms calls))) ∧
      (Term.allApart (terms calls) = true → ∀ ρ,
        (Term.chainFormula (Term.spliceAll (terms calls))).eval ρ =
          (Term.chainFormula (terms calls)).eval ρ) := by
  refine ⟨Term.chainText (terms calls), ?_, ?_, ?_⟩
  · rw [toValue_steps]
    exact Term.compile_chain hne hfilled
  · exact Term.condition?_spliceAll hd hne hfilled
  · exact fun hapart ρ => Term.eval_spliceAll ρ hfilled hapart

/-- A chain that opens with a disjunction and an open group with nested conjunctions, over
comparisons, a list and a range, whose texts hold quotes, connectives and parentheses. -/
theorem condition?_nested_disjunction :
    let d : Dialect := .builtin .mysql
    let a := Predicate.comparison .mysql "a" "=" "x' AND (" (by decide) (by decide)
    let b := Predicate.comparison .mysql "b" "LIKE" "\\' OR" (by decide) (by decide)
    let listed := Predicate.membership .mysql "c" "NOT IN" ["y') OR (", "z"] (by decide) (by decide)
    let between := Predicate.range .mysql "BETWEEN" "BETWEEN" "' AND" "(" (by decide) (by decide)
    let calls : List (NestedCall d) :=
      [.nested .and [.predicate .and a, .nested .or [.predicate .and b, .predicate .and between]],
        .openGroup .or, .predicate .and between, .nested .and [.predicate .or listed],
        .predicate .and b, .openGroup .or, .closeEmpty]
    d.Separates ∧ terms calls ≠ [] ∧ Term.allFilled (terms calls) = true ∧
      Term.allApart (terms calls) = true ∧
      ∃ text, (run empty (steps calls)).toValue.compile d = .ok text ∧
        d.condition? text = some (Term.chainFormula (Term.spliceAll (terms calls))) ∧
        ∀ ρ, (Term.chainFormula (Term.spliceAll (terms calls))).eval ρ =
          (Term.chainFormula (terms calls)).eval ρ := by
  intro d a b listed between calls
  have hd : d.Separates := by decide
  have hne : terms calls ≠ [] := List.cons_ne_nil _ _
  have hfilled : Term.allFilled (terms calls) = true := rfl
  have hapart : Term.allApart (terms calls) = true := rfl
  obtain ⟨text, hcompile, hread, hsame⟩ := condition?_nested hd hne hfilled
  exact ⟨hd, hne, hfilled, hapart, text, hcompile, hread, hsame hapart⟩

/-- **A nested disjunction beside an `AND` is no single operand**: without parentheses `AND` takes
its first term only. -/
theorem nested_disjunction_after_and :
    let d : Dialect := .builtin .generic
    let a := Predicate.comparison .generic "a" "=" "x" (by decide) (by decide)
    let b := Predicate.comparison .generic "b" "=" "x" (by decide) (by decide)
    let c := Predicate.comparison .generic "c" "=" "x" (by decide) (by decide)
    let calls : List (NestedCall d) :=
      [.predicate .and a, .nested .and [.predicate .and b, .predicate .or c]]
    let text := "\"a\" = 'x' AND \"b\" = 'x' OR \"c\" = 'x'"
    (run empty (steps calls)).toValue.compile d = .ok text ∧
      ∃ φ ρ, d.condition? text = some φ ∧
        φ.eval ρ = true ∧ (Term.chainFormula (terms calls)).eval ρ = false := by
  intro d a b c calls text
  have hd : d.Separates := by decide
  have hne : terms calls ≠ [] := List.cons_ne_nil _ _
  have hfilled : Term.allFilled (terms calls) = true := rfl
  have htext : Term.chainText (terms calls) = text := by decide
  have hread := Term.condition?_spliceAll hd hne hfilled
  rw [htext] at hread
  refine ⟨?_, _, fun ns => ns.head?.any (·.quotes "c"), hread, ?_, ?_⟩
  · rw [toValue_steps, Term.compile_chain hne hfilled, htext]
  · decide
  · decide

end PortableSql.Conditions
