import PortableSql.Proofs.Render.Outcome
import PortableSql.Proofs.Value.Alike

/-!
# Preparing does not look into literals

* `Draft.Alike`, `Walk.Alike`: the same text and the same end, with related literals in the same
  places; each step of a walk keeps the relation.
* `Value.Alike.walk`: values that differ in their literals alone have alike walks.
* **`Value.prepare_of_alike`**: they are prepared with one error or one text, and the literals that
  are bound at the same position stand at the same leaf.
-/

namespace PortableSql

/-! ## Alike drafts -/

/-- **The same text**, with literals in the same places that are related by `R`. -/
inductive Draft.Alike (R : Literal → Literal → Prop) : Draft → Draft → Prop
  | nil : Alike R nil nil
  | text (s : String) {a b : Draft} (h : Alike R a b) : Alike R (text s a) (text s b)
  | literal {l k : Literal} (hl : R l k) {a b : Draft} (h : Alike R a b) :
    Alike R (literal l a) (literal k b)

namespace Draft

variable {R S : Literal → Literal → Prop} {a b a' b' : Draft}

theorem Alike.append (h : a.Alike R b) (h' : a'.Alike R b') : (a ++ a').Alike R (b ++ b') := by
  induction h with
  | nil => exact h'
  | text s _ ih => exact .text s ih
  | literal hl _ ih => exact .literal hl ih

theorem Alike.isBlank (h : a.Alike R b) : a.isBlank = b.isBlank := by
  induction h with
  | nil => rfl
  | text s _ ih => rw [Draft.isBlank, ih, Draft.isBlank]
  | literal _ _ _ => rfl

theorem Alike.mono (hR : ∀ l k, R l k → S l k) (h : a.Alike R b) : a.Alike S b := by
  induction h with
  | nil => exact .nil
  | text s _ ih => exact .text s ih
  | literal hl _ ih => exact .literal (hR _ _ hl) ih

theorem Alike.literals (h : a.Alike R b) : List.Forall₂ R a.literals b.literals := by
  induction h with
  | nil => exact .nil
  | text s _ ih => exact ih
  | literal hl _ ih => exact .cons hl ih

theorem Alike.write (h : a.Alike R b) (marks : List String) : a.write marks = b.write marks := by
  induction h generalizing marks with
  | nil => rfl
  | text s _ ih => rw [Draft.write, ih, Draft.write]
  | literal _ _ ih => cases marks <;> rw [Draft.write, ih, Draft.write]

theorem alike_join (separator : String) {ds es : List Draft} (h : List.Forall₂ (Alike R) ds es) :
    (join separator ds).Alike R (join separator es) := by
  induction h with
  | nil => exact .nil
  | cons hd hds ih =>
    cases hds with
    | nil => exact hd
    | cons => exact hd.append (.text separator ih)

theorem alike_joinFilled (separator : String) {ds es : List Draft}
    (h : List.Forall₂ (Alike R) ds es) :
    (joinFilled separator ds).Alike R (joinFilled separator es) := by
  refine alike_join separator ?_
  induction h with
  | nil => exact .nil
  | @cons d e ds es hd _ ih =>
    rw [List.filter_cons, List.filter_cons, hd.isBlank]
    split_ifs
    · exact .cons hd ih
    · exact ih

end Draft

/-! ## Alike walks -/

/-- Walks with the same end and alike drafts. -/
structure Walk.Alike (R : Literal → Literal → Prop) (w k : Walk) : Prop where
  draft : w.draft.Alike R k.draft
  stop : w.stop = k.stop

namespace Walk

variable {R S : Literal → Literal → Prop} {w k w' k' : Walk}

theorem alike_text (s : String) : (text s).Alike R (text s) := ⟨.text s .nil, rfl⟩

theorem alike_halt (e : RenderError) : (halt e).Alike R (halt e) := ⟨.nil, rfl⟩

theorem Alike.mono (hR : ∀ l k, R l k → S l k) (h : w.Alike R k) : w.Alike S k :=
  ⟨h.draft.mono hR, h.stop⟩

theorem Alike.andThen (h : w.Alike R k) (h' : w'.Alike R k') :
    (w.andThen w').Alike R (k.andThen k') := by
  unfold Walk.andThen
  rw [h.stop]
  cases hk : k.stop with
  | none => exact ⟨h.draft.append h'.draft, h'.stop⟩
  | some e => exact h

theorem Alike.fillFrom (template : String) {ms ns : List (String × Walk)}
    (hn : ∀ token, (ms.lookup token = none ∧ ns.lookup token = none) ∨
      ∃ w k, ms.lookup token = some w ∧ ns.lookup token = some k ∧ w.Alike R k)
    (ps : List Piece) (used : Nat) {left right : List Walk}
    (hl : List.Forall₂ (Alike R) left right) :
    (Walk.fillFrom template ms ps used left).Alike R
      (Walk.fillFrom template ns ps used right) := by
  induction ps generalizing used left right with
  | nil =>
    cases hl with
    | nil => exact ⟨.nil, rfl⟩
    | cons _ hl =>
      simp only [Walk.fillFrom, List.length_cons, hl.length_eq]
      exact alike_halt _
  | cons p ps ih =>
    cases p with
    | text s => exact (alike_text s).andThen (ih used hl)
    | positional =>
      cases hl with
      | nil => exact alike_halt _
      | cons h hl => exact h.andThen (ih (used + 1) hl)
    | named token =>
      rw [Walk.fillFrom, Walk.fillFrom]
      rcases hn token with ⟨hm, hk⟩ | ⟨w, k, hm, hk, h⟩
      · rw [hm, hk]
        exact alike_halt _
      · rw [hm, hk]
        exact h.andThen (ih used hl)

theorem alike_each {ws ks : List Walk} (h : List.Forall₂ (Alike R) ws ks) :
    List.Forall₂ (Draft.Alike R) (each ws).1 (each ks).1 ∧ (each ws).2 = (each ks).2 := by
  induction h with
  | nil => exact ⟨.nil, rfl⟩
  | @cons w k ws ks hw _ ih =>
    rw [each, each, hw.stop]
    cases k.stop with
    | none => exact ⟨.cons hw.draft ih.1, ih.2⟩
    | some e => exact ⟨.cons hw.draft .nil, rfl⟩

theorem Alike.sequence {ws ks : List Walk} (h : List.Forall₂ (Alike R) ws ks) :
    (Walk.sequence ws).Alike R (Walk.sequence ks) :=
  ⟨Draft.alike_joinFilled ", " (alike_each h).1, (alike_each h).2⟩

end Walk

/-! ## Two values -/

/-- The walks through lists of alike values, when `R` holds of the literals at the same leaves. -/
theorem alike_map_walk {d : Dialect} {R : Literal → Literal → Prop} {as bs : List Value}
    (h : List.Forall₂ Value.Alike as bs)
    (ih : ∀ a ∈ as, ∀ b, a.Alike b → (a.walk d).Alike (a.SameLeaf b) (b.walk d))
    (hR : ∀ (i : Nat) a b, as[i]? = some a → bs[i]? = some b →
      ∀ l k, a.SameLeaf b l k → R l k) :
    List.Forall₂ (Walk.Alike R) (as.map (Value.walk d)) (bs.map (Value.walk d)) := by
  rw [List.forall₂_map_left_iff, List.forall₂_map_right_iff, List.forall₂_iff_get]
  refine ⟨h.length_eq, fun i hi hj => ?_⟩
  have hab := (List.forall₂_iff_get.mp h).2 i hi hj
  have ha : as[i]? = some as[i] := List.getElem?_eq_getElem hi
  have hb : bs[i]? = some bs[i] := List.getElem?_eq_getElem hj
  exact (ih _ (List.getElem_mem hi) _ hab).mono (hR i _ _ ha hb)

theorem Value.Alike.walk {d : Dialect} {v w : Value} (h : v.Alike w) :
    (v.walk d).Alike (v.SameLeaf w) (w.walk d) := by
  induction v generalizing w with
  | literal l =>
    cases h
    exact ⟨.literal ⟨[], rfl, rfl⟩ .nil, rfl⟩
  | identifier n =>
    cases h
    exact Walk.alike_text _
  | column n =>
    cases h
    exact Walk.alike_text _
  | table n =>
    cases h
    exact Walk.alike_text _
  | sequence as ih =>
    obtain _ | _ | _ | _ | h := h
    rw [Value.walk_sequence, Value.walk_sequence]
    refine Walk.Alike.sequence (alike_map_walk h (fun a ha b => ih a ha) ?_)
    exact fun i _ _ ha hb _ _ hl => hl.down (.item i) ha hb
  | expression template as ms ihp ihn =>
    cases h with
    | @expression _ _ bs _ ns hp ht hn =>
      have hpe : as.isEmpty = bs.isEmpty := by cases hp <;> rfl
      have hne : ms.isEmpty = ns.isEmpty := by simpa using congrArg List.isEmpty ht
      rw [Value.walk_expression, Value.walk_expression, hpe, hne]
      split_ifs
      · exact Walk.alike_text _
      · refine Walk.Alike.fillFrom _ (fun token => ?_) _ 0
          (alike_map_walk hp (fun a ha b => ihp a ha) ?_)
        · rw [lookup_map_values, lookup_map_values]
          rcases lookup_forall₂ ht hn token with ⟨hm, hk⟩ | ⟨a, b, hm, hk, hab⟩
          · rw [hm, hk]
            exact .inl ⟨rfl, rfl⟩
          · rw [hm, hk]
            refine .inr ⟨_, _, rfl, rfl, (ihn _ (mem_of_lookup hm) hab).mono ?_⟩
            exact fun _ _ hl => hl.down (.named token) hm hk
        · exact fun i _ _ ha hb _ _ hl => hl.down (.positional i) ha hb

/-- **The two values are prepared alike**: with the same error, or with the same text and with
literals that stand at the same leaves, in the same order. -/
def Value.PreparedAlike (d : Dialect) (v w : Value) : Prop :=
  (∃ e, v.prepare d = .error e ∧ w.prepare d = .error e) ∨
    ∃ (sql : String) (ls ks : List Literal) (leaves : List (List Turn)),
      v.prepare d = .ok ⟨sql, ls⟩ ∧ w.prepare d = .ok ⟨sql, ks⟩ ∧ ls.length = ks.length ∧
      leaves.map v.leaf? = ls.map some ∧ leaves.map w.leaf? = ks.map some

/-- **Preparing does not look into literals.** -/
theorem Value.prepare_of_alike (d : Dialect) {v w : Value} (h : v.Alike w) :
    v.PreparedAlike d w := by
  obtain ⟨hd, hs⟩ := h.walk (d := d)
  rw [Value.PreparedAlike, Value.prepare_eq, Value.prepare_eq, hs]
  cases (w.walk d).stop with
  | some e => exact .inl ⟨e, rfl, rfl⟩
  | none =>
    obtain ⟨leaves, hv, hw⟩ := exists_leaves hd.literals
    have hl := hd.literals.length_eq
    exact .inr ⟨_, _, _, leaves, rfl, by rw [hl, hd.write], hl, hv, hw⟩

/-- A text that closes its quotes and a number. -/
theorem Value.prepare_of_alike_closing_quote :
    let v (l : Literal) : Value := .expression ⟨"a = ? OR b = :b", [.sequence [.literal l]],
      [(":b", .literal l)]⟩
    (v (.text "'; DROP TABLE a; --")).Alike (v (.int 1)) ∧
      (v (.text "'; DROP TABLE a; --")).PreparedAlike (.builtin .mysql) (v (.int 1)) := by
  intro v
  have h : (v (.text "'; DROP TABLE a; --")).Alike (v (.int 1)) :=
    .expression _ (.cons (.sequence (.cons (.literal _ _) .nil)) .nil) rfl
      (.cons (.literal _ _) .nil)
  exact ⟨h, Value.prepare_of_alike (.builtin .mysql) h⟩

end PortableSql
