import PortableSql.Proofs.Render.Outcome

/-!
# Expressions piece by piece

How an expression with values ends can be told from its pieces: with the error of the leftmost one
that fails, and if none fails, by the number of its positional values.

* `Template.places`: the pieces of a template, each with those before it.
* `Expression.faultAt?`, **`Expression.fault?`**: why a piece fails, and the leftmost one that does.
* `Expression.Ends`, **`Renders.ends`**: the outcome that a renderer gives.
* `Expression.fault?_eq_none_iff`: no piece fails if every placeholder has a value that renders.
* **`Expression.EndsByPieces`**: the outcome as the pieces have it.
* `Value.walk_expression_congr`: named values under other tokens are never looked up.
* **`Expression.outcome_by_pieces`**: both renderers end in this way.
-/

namespace PortableSql

/-! ## Places -/

namespace Template

/-- Pieces, each with all those before it, if `before` come first. -/
def placesFrom (before : List Piece) : List Piece → List (List Piece × Piece)
  | [] => []
  | p :: ps => (before, p) :: placesFrom (before ++ [p]) ps

/-- **The pieces of a template from left to right**, each with those before it. -/
def places (template : String) : List (List Piece × Piece) := placesFrom [] (split template)

theorem mem_placesFrom {before b : List Piece} {p : Piece} {ps : List Piece} :
    (b, p) ∈ placesFrom before ps ↔ ∃ c after, ps = c ++ p :: after ∧ b = before ++ c := by
  induction ps generalizing before with
  | nil => simp [placesFrom]
  | cons q ps ih =>
    rw [placesFrom, List.mem_cons, ih]
    constructor
    · rintro (h | ⟨c, after, rfl, rfl⟩)
      · cases h
        exact ⟨[], ps, rfl, (List.append_nil b).symm⟩
      · exact ⟨q :: c, after, rfl, List.append_assoc ..⟩
    · rintro ⟨c, after, hps, rfl⟩
      cases c with
      | nil =>
        cases hps
        exact .inl (congrArg (·, p) (List.append_nil before))
      | cons r c =>
        cases hps
        exact .inr ⟨c, after, rfl, (List.append_assoc before [q] c).symm⟩

theorem mem_places {template : String} {b : List Piece} {p : Piece} :
    (b, p) ∈ places template ↔ ∃ after, split template = b ++ p :: after := by
  rw [places, mem_placesFrom]
  constructor
  · rintro ⟨c, after, h, rfl⟩
    exact ⟨after, h⟩
  · rintro ⟨after, h⟩
    exact ⟨b, after, h, rfl⟩

/-- Every number below that of the positional placeholders is the number of those before one. -/
theorem exists_split_of_lt_count {ps : List Piece} {k : Nat} (h : k < ps.count .positional) :
    ∃ b after, ps = b ++ .positional :: after ∧ b.count .positional = k := by
  induction ps generalizing k with
  | nil => cases h
  | cons p ps ih =>
    by_cases hp : p = .positional
    · subst hp
      cases k with
      | zero => exact ⟨[], ps, rfl, rfl⟩
      | succ k =>
        rw [List.count_cons_self] at h
        obtain ⟨b, after, rfl, hk⟩ := ih (Nat.lt_of_succ_lt_succ h)
        exact ⟨.positional :: b, after, rfl, by rw [List.count_cons_self, hk]⟩
    · rw [List.count_cons_of_ne hp] at h
      obtain ⟨b, after, rfl, hk⟩ := ih h
      exact ⟨p :: b, after, rfl, by rw [List.count_cons_of_ne hp, hk]⟩

end Template

/-! ## Faults -/

/-- The error of an outcome. -/
def RenderError.of? {α : Type} : Except RenderError α → Option RenderError
  | .ok _ => none
  | .error e => some e

theorem RenderError.of?_eq_none {α : Type} {r : Except RenderError α} :
    of? r = none ↔ ∃ a, r = .ok a := by
  cases r <;> simp [of?]

namespace Expression

variable {α : Type} (e : Expression) (render : Value → Except RenderError α)

/-- Why a piece fails that has `before` before it: its placeholder has no value, or the value does
not render. -/
def faultAt? (before : List Piece) : Piece → Option RenderError
  | .text _ => none
  | .positional => match e.positional[before.count .positional]? with
    | none => some (.missingPositional e.positional.length e.template)
    | some v => RenderError.of? (render v)
  | .named token => match e.named.lookup token with
    | none => some (.missingNamed token e.template)
    | some v => RenderError.of? (render v)

/-- The fault of the leftmost of some pieces that fails. -/
def leftmost? (places : List (List Piece × Piece)) : Option RenderError :=
  places.findSome? fun x => e.faultAt? render x.1 x.2

/-- **The fault of the leftmost piece that fails.** -/
def fault? : Option RenderError := e.leftmost? render (Template.places e.template)

/-- How filling pieces with `used` positional placeholders ends: with a fault, or with a positional
value that is left over, or well. -/
def Ends (fault : Option RenderError) (used : Nat) (r : Except RenderError α) : Prop :=
  match fault with
  | some err => r = .error err
  | none => used ≤ e.positional.length ∧
    if used < e.positional.length then
      r = .error (.unusedPositional used e.positional.length e.template)
    else ∃ a, r = .ok a

variable {e render}

theorem faultAt?_positional (before : List Piece) :
    e.faultAt? render before .positional = match e.positional[before.count .positional]? with
      | none => some (.missingPositional e.positional.length e.template)
      | some v => RenderError.of? (render v) := rfl

theorem leftmost?_cons (before : List Piece) (p : Piece) (places : List (List Piece × Piece)) :
    e.leftmost? render ((before, p) :: places) = match e.faultAt? render before p with
      | some err => some err
      | none => e.leftmost? render places := by
  rw [leftmost?, List.findSome?_cons]
  cases e.faultAt? render before p <;> rfl

theorem faultAt?_named (before : List Piece) (token : String) :
    e.faultAt? render before (.named token) = match e.named.lookup token with
      | none => some (.missingNamed token e.template)
      | some v => RenderError.of? (render v) := rfl

/-- What is written before the other pieces does not change how they end. -/
theorem Ends.write {fault : Option RenderError} {used : Nat} {r : Except RenderError String}
    (h : e.Ends fault used r) (s : String) : e.Ends fault used (do return s ++ (← r)) := by
  cases fault with
  | some err =>
    obtain rfl : r = .error err := h
    rfl
  | none =>
    obtain ⟨hle, h⟩ := h
    refine ⟨hle, ?_⟩
    split_ifs at h ⊢
    · rw [h]
      rfl
    · obtain ⟨t, rfl⟩ := h
      exact ⟨s ++ t, rfl⟩

/-- A value that fails comes before all that the other pieces do. -/
theorem Ends.after {fault : Option RenderError} {used : Nat} {r : Except RenderError String}
    (h : e.Ends fault used r) (q : Except RenderError String) :
    e.Ends (match RenderError.of? q with | some err => some err | none => fault) used (do
      let s ← q
      return s ++ (← r)) := by
  cases q with
  | error err => rfl
  | ok s => exact h.write s

/-- Only the error of an outcome counts. -/
theorem Ends.congr {β : Type} {fault : Option RenderError} {used : Nat} {r : Except RenderError α}
    {q : Except RenderError β} (hq : ∀ err, q = .error err ↔ r = .error err)
    (h : e.Ends fault used r) : e.Ends fault used q := by
  cases fault with
  | some err => exact (hq err).mpr h
  | none =>
    obtain ⟨hle, h⟩ := h
    refine ⟨hle, ?_⟩
    split_ifs at h ⊢
    · exact (hq _).mpr h
    · obtain ⟨a, rfl⟩ := h
      cases hr : q with
      | ok b => exact ⟨b, rfl⟩
      | error err => cases (hq err).mp hr

theorem fault?_congr {β : Type} {f : Value → Except RenderError β}
    (h : ∀ v err, f v = .error err ↔ render v = .error err) : e.fault? f = e.fault? render := by
  have hof (v : Value) : RenderError.of? (f v) = RenderError.of? (render v) := by
    cases hr : render v with
    | error err => rw [(h v err).mpr hr]; rfl
    | ok a =>
      cases hf : f v with
      | ok b => rfl
      | error err => cases hr.symm.trans ((h v err).mp hf)
  have hat (before : List Piece) (p : Piece) :
      e.faultAt? f before p = e.faultAt? render before p := by
    cases p <;> simp only [faultAt?, hof]
  simp only [fault?, leftmost?, hat]

/-- **Pieces end at the leftmost one that fails.** -/
theorem ends_fillFrom (e : Expression) (render : Value → Except RenderError String)
    (ps before : List Piece) (hb : before.count .positional ≤ e.positional.length) :
    e.Ends (e.leftmost? render (Template.placesFrom before ps))
      (before.count .positional + ps.count .positional)
      (fillFrom e.template (e.named.map fun m => (m.1, render m.2)) ps
        (before.count .positional)
        ((e.positional.drop (before.count .positional)).map render)) := by
  induction ps generalizing before with
  | nil =>
    refine ⟨hb, ?_⟩
    rw [List.count_nil, Nat.add_zero]
    split_ifs with hlt
    · have hlength : before.count .positional +
          (e.positional.length - (before.count .positional + 1) + 1) = e.positional.length := by
        omega
      rw [List.drop_eq_getElem_cons hlt, List.map_cons, fillFrom, List.length_cons,
        List.length_map, List.length_drop, hlength]
      · rfl
      · intro h
        cases h
    · rw [List.drop_of_length_le (Nat.le_of_not_lt hlt), List.map_nil, fillFrom]
      exact ⟨"", rfl⟩
  | cons p ps ih =>
    rw [Template.placesFrom, leftmost?_cons]
    cases p with
    | text s =>
      have h := ih (before ++ [.text s]) (by simpa using hb)
      simp only [List.count_append, List.count_singleton] at h
      exact h.write s
    | positional =>
      cases hv : e.positional[before.count .positional]? with
      | none =>
        have hle := List.getElem?_eq_none_iff.mp hv
        rw [faultAt?_positional, hv, List.drop_of_length_le hle, List.map_nil, fillFrom,
          Nat.le_antisymm hb hle]
        rfl
      | some v =>
        obtain ⟨hlt, rfl⟩ := List.getElem?_eq_some_iff.mp hv
        have h := ih (before ++ [.positional]) (by simpa using Nat.succ_le_of_lt hlt)
        rw [List.count_append, List.count_singleton_self] at h
        rw [faultAt?_positional, hv, List.drop_eq_getElem_cons hlt, List.map_cons, fillFrom,
          List.count_cons_self, ← Nat.add_assoc, Nat.add_right_comm]
        exact h.after _
    | named token =>
      rw [fillFrom, lookup_map_values]
      cases hv : e.named.lookup token with
      | none =>
        rw [faultAt?_named, hv]
        rfl
      | some v =>
        have h := ih (before ++ [.named token]) (by simpa using hb)
        simp only [List.count_append, List.count_singleton] at h
        rw [faultAt?_named, hv]
        exact h.after _

/-! ## Without faults -/

theorem faultAt?_positional_eq_none {before : List Piece} :
    e.faultAt? render before .positional = none ↔
      ∃ v, e.positional[before.count .positional]? = some v ∧ ∃ a, render v = .ok a := by
  rw [faultAt?_positional]
  cases e.positional[before.count .positional]? with
  | none => simp
  | some v => simp [RenderError.of?_eq_none]

theorem faultAt?_named_eq_none {before : List Piece} {token : String} :
    e.faultAt? render before (.named token) = none ↔
      ∃ v, e.named.lookup token = some v ∧ ∃ a, render v = .ok a := by
  rw [faultAt?_named]
  cases e.named.lookup token with
  | none => simp
  | some v => simp [RenderError.of?_eq_none]

theorem fault?_eq_none : e.fault? render = none ↔
    ∀ before p after, Template.split e.template = before ++ p :: after →
      e.faultAt? render before p = none := by
  rw [fault?, leftmost?, List.findSome?_eq_none_iff]
  constructor
  · intro h before p after hsplit
    exact h (before, p) (Template.mem_places.mpr ⟨after, hsplit⟩)
  · rintro h ⟨before, p⟩ hmem
    obtain ⟨after, hsplit⟩ := Template.mem_places.mp hmem
    exact h before p after hsplit

/-- **No piece fails if every placeholder has a value that renders**, where there are as many
positional placeholders as values. -/
theorem fault?_eq_none_iff
    (hcount : (Template.split e.template).count .positional = e.positional.length) :
    e.fault? render = none ↔
      (∀ token, .named token ∈ Template.split e.template →
        ∃ v, e.named.lookup token = some v ∧ ∃ a, render v = .ok a) ∧
      ∀ v ∈ e.positional, ∃ a, render v = .ok a := by
  rw [fault?_eq_none]
  constructor
  · refine fun h => ⟨fun token htoken => ?_, fun v hv => ?_⟩
    · obtain ⟨before, after, hsplit⟩ := List.append_of_mem htoken
      exact faultAt?_named_eq_none.mp (h _ _ _ hsplit)
    · obtain ⟨k, hk, rfl⟩ := List.getElem_of_mem hv
      obtain ⟨before, after, hsplit, rfl⟩ := Template.exists_split_of_lt_count (hcount.symm ▸ hk)
      obtain ⟨w, hw, hrender⟩ := faultAt?_positional_eq_none.mp (h _ _ _ hsplit)
      rw [List.getElem?_eq_getElem hk, Option.some.injEq] at hw
      rwa [hw]
  · rintro ⟨hnamed, hpositional⟩ before p after hsplit
    cases p with
    | text s => rfl
    | positional =>
      have hlt : before.count .positional < e.positional.length := by
        rw [← hcount, hsplit, List.count_append, List.count_cons_self]
        omega
      exact faultAt?_positional_eq_none.mpr
        ⟨_, List.getElem?_eq_getElem hlt, hpositional _ (List.getElem_mem hlt)⟩
    | named token =>
      refine faultAt?_named_eq_none.mpr (hnamed token ?_)
      rw [hsplit]
      exact List.mem_append_right before List.mem_cons_self

end Expression

/-! ## The two renderers -/

theorem Expression.not_isEmpty_of_hasParameters {e : Expression} (h : e.hasParameters = true) :
    ¬(e.positional.isEmpty && e.named.isEmpty) = true := by
  rw [hasParameters, Bool.or_eq_true, Bool.not_eq_true', Bool.not_eq_true'] at h
  rw [Bool.and_eq_true, not_and_or, Bool.not_eq_true, Bool.not_eq_true]
  exact h

/-- **A renderer ends an expression with values at the leftmost piece that fails.** -/
theorem Renders.ends {d : Dialect} {S : Scribe (Except RenderError)}
    {render : Value → Except RenderError String} (h : Renders d S render) {e : Expression}
    (he : e.hasParameters = true) :
    e.Ends (e.fault? render) ((Template.split e.template).count .positional)
      (render (.expression e)) := by
  obtain ⟨template, positional, named⟩ := e
  have hends := Expression.ends_fillFrom ⟨template, positional, named⟩ render
    (Template.split template) [] (Nat.zero_le _)
  rw [List.count_nil, Nat.zero_add] at hends
  rw [h.expression, if_neg (Expression.not_isEmpty_of_hasParameters he)]
  exact hends

theorem Walk.fillFrom_congr (template : String) {named others : List (String × Walk)}
    {ps : List Piece}
    (h : ∀ token, .named token ∈ ps → named.lookup token = others.lookup token) (used : Nat)
    (left : List Walk) :
    fillFrom template named ps used left = fillFrom template others ps used left := by
  induction ps generalizing used left with
  | nil => cases left <;> rfl
  | cons p ps ih =>
    have hrest := ih fun token htoken => h token (List.mem_cons_of_mem p htoken)
    cases p with
    | text s => rw [fillFrom, hrest, fillFrom]
    | positional =>
      cases left with
      | nil => rfl
      | cons w left => rw [fillFrom, hrest, fillFrom]
    | named token => rw [fillFrom, h token List.mem_cons_self, fillFrom, hrest]

/-- **Named values whose token does not occur in the template play no part.** -/
theorem Value.walk_expression_congr (d : Dialect) {e : Expression} {named : List (String × Value)}
    (he : e.hasParameters = true) (hn : { e with named := named }.hasParameters = true)
    (h : ∀ token, .named token ∈ Template.split e.template →
      named.lookup token = e.named.lookup token) :
    (Value.expression { e with named := named }).walk d = (Value.expression e).walk d := by
  obtain ⟨template, positional, values⟩ := e
  rw [walk_expression, walk_expression, if_neg (Expression.not_isEmpty_of_hasParameters hn),
    if_neg (Expression.not_isEmpty_of_hasParameters he)]
  refine Walk.fillFrom_congr template (fun token htoken => ?_) 0 _
  rw [lookup_map_values, lookup_map_values, h token htoken]

/-- **The outcome of an expression with values, as its pieces have it**: it is written just when
there is a positional value for every positional placeholder and no other one, a named value for
every token, and each of them is written; and it ends as the leftmost piece that fails, or else with
the positional values that are left over. -/
structure Expression.EndsByPieces {α : Type} (e : Expression)
    (render : Value → Except RenderError α) : Prop where
  ok_iff : (∃ a, render (.expression e) = .ok a) ↔
    (Template.split e.template).count .positional = e.positional.length ∧
      (∀ token, .named token ∈ Template.split e.template →
        ∃ v, e.named.lookup token = some v ∧ ∃ a, render v = .ok a) ∧
      ∀ v ∈ e.positional, ∃ a, render v = .ok a
  ends : e.Ends (e.fault? render) ((Template.split e.template).count .positional)
    (render (.expression e))

theorem Expression.Ends.endsByPieces {α : Type} {e : Expression}
    {render : Value → Except RenderError α}
    (h : e.Ends (e.fault? render) ((Template.split e.template).count .positional)
      (render (.expression e))) : e.EndsByPieces render := by
  refine ⟨⟨fun ⟨a, ha⟩ => ?_, fun ⟨hcount, hvalues⟩ => ?_⟩, h⟩
  · cases hf : e.fault? render with
    | some err =>
      rw [hf, ha] at h
      cases h
    | none =>
      rw [hf, ha] at h
      obtain ⟨hle, h⟩ := h
      split_ifs at h with hlt
      have hcount := Nat.le_antisymm hle (Nat.le_of_not_lt hlt)
      exact ⟨hcount, (fault?_eq_none_iff hcount).mp hf⟩
  · rw [(fault?_eq_none_iff hcount).mpr hvalues] at h
    obtain ⟨-, h⟩ := h
    rwa [if_neg (by omega)] at h

/-- **The outcome of rendering one expression.** With values, both renderers end by its pieces, and
named values under tokens that the template does not hold, or that an enclosing expression has, play
no part. Without values, both write the template as it stands. -/
theorem Expression.outcome_by_pieces (d : Dialect) (e : Expression) :
    (e.hasParameters = true →
      e.EndsByPieces (Value.compile d) ∧ e.EndsByPieces (Value.prepare d) ∧
      ∀ named, { e with named := named }.hasParameters = true →
        (∀ token, .named token ∈ Template.split e.template →
          named.lookup token = e.named.lookup token) →
        (Value.expression { e with named := named }).compile d = (Value.expression e).compile d ∧
        (Value.expression { e with named := named }).prepare d = (Value.expression e).prepare d) ∧
    (e.hasParameters = false → (Value.expression e).compile d = .ok e.template ∧
      (Value.expression e).prepare d = .ok ⟨e.template, []⟩) := by
  refine ⟨fun he => ⟨?_, ?_, fun named hn h => ?_⟩, fun he => ?_⟩
  · exact ((renders_compile d).ends he).endsByPieces
  · have hmark (v : Value) (err : RenderError) :
        v.prepare d = .error err ↔ (v.walk d).perform marking = .error err :=
      Value.prepare_eq_error_iff_marking
    have hends := ((renders_perform d marking).ends he).congr (hmark (.expression e))
    rw [← fault?_congr hmark] at hends
    exact hends.endsByPieces
  · have hw := Value.walk_expression_congr d he hn h
    rw [Value.compile_eq, Value.compile_eq, Value.prepare_eq, Value.prepare_eq, hw]
    exact ⟨rfl, rfl⟩
  · obtain ⟨template, positional, named⟩ := e
    simp only [hasParameters, Bool.or_eq_false_iff, Bool.not_eq_false', List.isEmpty_iff] at he
    obtain ⟨rfl, rfl⟩ := he
    exact ⟨rfl, rfl⟩

/-- A nested expression without a value for its token, which the map around it has; after it comes a
placeholder without a value, and no literal can stand for the value under the token of the map. With
the nested value alone nothing fails but the count of the values. -/
theorem Expression.outcome_by_pieces_nested :
    let inner : Value := .expression ⟨"? > :m", [.column ⟨"a", .none⟩], []⟩
    let named : List (String × Value) :=
      [(":m", .literal (.float (1 / 0))), (":n", .literal (.int 5))]
    let e : Expression := ⟨"? = :n OR ? AND ?", [.column ⟨"b", .none⟩, inner], named⟩
    let f : Expression := ⟨":n + :n", [inner], named⟩
    let d : Dialect := .builtin .postgres
    let fault : RenderError := .missingNamed ":m" "? > :m"
    let leftOver : RenderError := .unusedPositional 0 1 ":n + :n"
    e.fault? (Value.compile d) = some fault ∧ (Value.expression e).compile d = .error fault ∧
      (Value.expression e).prepare d = .error fault ∧ f.fault? (Value.prepare d) = none ∧
      (Value.expression f).prepare d = .error leftOver := by
  intro inner named e f d fault leftOver
  obtain ⟨hcompile, hprepare, -⟩ := (Expression.outcome_by_pieces d e).1 rfl
  obtain ⟨-, hleftOver, -⟩ := (Expression.outcome_by_pieces d f).1 rfl
  have hfault : e.fault? (Value.compile d) = some fault := by decide
  have hfault' : e.fault? (Value.prepare d) = some fault := by decide
  have hnone : f.fault? (Value.prepare d) = none := by decide
  have hcount : (Template.split f.template).count .positional = 0 := by decide
  have hc := hcompile.ends
  rw [hfault] at hc
  have hp := hprepare.ends
  rw [hfault'] at hp
  have hl := hleftOver.ends
  rw [hnone, hcount] at hl
  exact ⟨hfault, hc, hp, hnone, (if_pos (by decide)).mp hl.2⟩

end PortableSql
