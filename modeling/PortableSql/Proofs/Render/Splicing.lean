import PortableSql.Proofs.Render.Outcome

/-!
# Sequences in sequences

A sequence in a sequence leaves no trace: its items stand among those of the outer one, and what is
empty takes no comma, however deep it stands.

* `Text.beside`, `Text.joinFilled_append`: texts joined part by part, where empty parts count for
  nothing.
* `inOrder_append`, `inOrder_joinFilled`, `inOrder_map_pure`: the same for the results of actions.
* **`Value.spliced`**: the values in a tree of sequences, from left to right.
* `Renders.render_spliced`: a renderer writes a tree of sequences as these values with commas
  between them; `Renders.render_texts`: values that have texts of their own.
* **`Value.render_sequence_spliced`**: both renderers, for a sequence in a sequence and for trees.
-/

namespace PortableSql

/-! ## Texts -/

namespace Text

variable {separator : String}

/-- Two texts with `separator` between them, unless one of them is empty. -/
def beside (separator s t : String) : String :=
  if s = "" then t else if t = "" then s else s ++ separator ++ t

theorem beside_assoc (s t u : String) :
    beside separator (beside separator s t) u = beside separator s (beside separator t u) := by
  unfold beside
  split_ifs <;> simp_all [String.append_eq_empty_iff, String.append_assoc]

theorem join_ne_empty {s : String} (hs : s ≠ "") (parts : List String) :
    join separator (s :: parts) ≠ "" := by
  cases parts with
  | nil => exact hs
  | cons t parts =>
    intro h
    rw [join, String.append_assoc] at h
    exact hs (String.append_eq_empty_iff.mp h).1

theorem joinFilled_cons (s : String) (parts : List String) :
    joinFilled separator (s :: parts) = beside separator s (joinFilled separator parts) := by
  by_cases hs : s = ""
  · rw [joinFilled, List.filter_cons_of_neg (by simp [hs]), beside, if_pos hs, joinFilled]
  rw [joinFilled, List.filter_cons_of_pos (by simp [hs]), beside, if_neg hs, joinFilled]
  cases hf : parts.filter (· ≠ "") with
  | nil => rfl
  | cons t filled =>
    have ht : t ∈ parts.filter (· ≠ "") := hf ▸ List.mem_cons_self
    have hne : t ≠ "" := by simpa using (List.mem_filter.mp ht).2
    rw [join, if_neg (join_ne_empty hne filled)]

/-- **Texts are joined part by part.** -/
theorem joinFilled_append (ss ts : List String) :
    joinFilled separator (ss ++ ts) =
      beside separator (joinFilled separator ss) (joinFilled separator ts) := by
  induction ss with
  | nil => exact (if_pos rfl).symm
  | cons s ss ih => rw [List.cons_append, joinFilled_cons, ih, joinFilled_cons, beside_assoc]

theorem join_eq_intercalate (parts : List String) :
    join separator parts = separator.intercalate parts := by
  induction parts with
  | nil => exact String.intercalate_nil.symm
  | cons s parts ih =>
    cases parts with
    | nil => exact String.intercalate_singleton.symm
    | cons t parts => rw [join, ih, String.intercalate_cons_cons]

end Text

/-! ## Actions -/

section

variable {m : Type → Type} [Monad m] [LawfulMonad m]

theorem inOrder_append (as bs : List (m String)) : inOrder (as ++ bs) = do
    let ss ← inOrder as
    return ss ++ (← inOrder bs) := by
  induction as with
  | nil => simp only [inOrder, List.nil_append, pure_bind, bind_pure]
  | cons a as ih => simp only [inOrder, List.cons_append, ih, bind_assoc, pure_bind]

/-- **Results that are joined group by group are joined in one go.** -/
theorem inOrder_joinFilled (separator : String) (groups : List (List (m String))) :
    (do return Text.joinFilled separator (← inOrder (groups.map fun as => do
      return Text.joinFilled separator (← inOrder as)))) =
      (do return Text.joinFilled separator (← inOrder groups.flatten)) := by
  induction groups with
  | nil => rfl
  | cons as groups ih =>
    rw [List.flatten_cons, inOrder_append]
    simp only [List.map_cons, inOrder, bind_assoc, pure_bind, Text.joinFilled_cons,
      Text.joinFilled_append]
    refine bind_congr fun ss => ?_
    have hrest := congrArg (Functor.map (Text.beside separator (Text.joinFilled separator ss))) ih
    simpa only [map_eq_pure_bind, bind_assoc, pure_bind] using hrest

theorem inOrder_map {α : Type} (f : α → m String) (as : List α) :
    inOrder (as.map f) = as.mapM f := by
  induction as with
  | nil => rfl
  | cons a as ih => rw [List.map_cons, inOrder, ih, List.mapM_cons]

theorem inOrder_map_pure {α : Type} (f : α → String) (as : List α) :
    inOrder (as.map fun a => (pure (f a) : m String)) = pure (as.map f) := by
  rw [inOrder_map, List.mapM_pure]

end

/-! ## Trees of sequences -/

mutual

/-- **The values in a tree of sequences**, from left to right: those that are no sequences. -/
def Value.spliced : Value → List Value
  | .sequence items => (splicedAll items).flatten
  | v => [v]

/-- The values in each of several trees. -/
def splicedAll : List Value → List (List Value)
  | [] => []
  | v :: vs => v.spliced :: splicedAll vs

end

theorem splicedAll_eq_map (vs : List Value) : splicedAll vs = vs.map Value.spliced :=
  eq_map_of_cons rfl (fun _ _ => rfl) vs

theorem Value.spliced_sequence (items : List Value) :
    (Value.sequence items).spliced = items.flatMap Value.spliced := by
  rw [Value.spliced, splicedAll_eq_map]
  rfl

/-- A sequence in a sequence has the values of its items in its place. -/
theorem Value.spliced_sequence_sequence (xs ys zs : List Value) :
    (Value.sequence (xs ++ [.sequence ys] ++ zs)).spliced =
      (Value.sequence (xs ++ ys ++ zs)).spliced := by
  simp only [spliced_sequence, List.flatMap_append, List.flatMap_singleton]

theorem Value.ne_sequence_of_mem_spliced {v w : Value} (h : w ∈ v.spliced) (items : List Value) :
    w ≠ .sequence items := by
  induction v with
  | sequence vs ih =>
    rw [spliced_sequence] at h
    obtain ⟨v, hv, hw⟩ := List.mem_flatMap.mp h
    exact ih v hv hw
  | _ =>
    cases List.mem_singleton.mp h
    exact nofun

/-- What is spliced has no sequences left to splice. -/
theorem Value.spliced_sequence_spliced (v : Value) :
    (Value.sequence v.spliced).spliced = v.spliced := by
  rw [spliced_sequence]
  induction v with
  | sequence items ih =>
    simp only [spliced_sequence] at ih ⊢
    rw [List.flatMap_assoc]
    exact List.flatMap_congr ih
  | _ => rfl

section

variable {m : Type → Type} [Monad m] [MonadExceptOf RenderError m] [LawfulMonad m] {d : Dialect}
  {S : Scribe m} {render : Value → m String}

/-- **A renderer writes a tree of sequences as its values with commas between them.** -/
theorem Renders.render_spliced (h : Renders d S render) (v : Value) :
    render v = (do return Text.joinFilled ", " (← inOrder (v.spliced.map render))) := by
  -- a value that is no sequence is the only one of its tree
  have hone (v : Value) : render v = (do return Text.joinFilled ", " (← inOrder [render v])) := by
    have hjoin (s : String) : Text.joinFilled ", " [s] = s := by
      rw [Text.joinFilled_cons]
      by_cases hs : s = "" <;> simp [Text.beside, Text.joinFilled, Text.join, hs]
    simp only [inOrder, bind_assoc, pure_bind, hjoin, bind_pure]
  induction v with
  | literal l => exact hone _
  | identifier n => exact hone _
  | column n => exact hone _
  | table n => exact hone _
  | sequence items ih =>
    rw [h.sequence, List.map_congr_left ih, Value.spliced_sequence, List.map_flatMap,
      List.flatMap_def, ← inOrder_joinFilled, List.map_map]
    rfl
  | expression template positional named => exact hone _

/-- The values of a tree in one sequence are written as the tree is. -/
theorem Renders.render_sequence_of_spliced (h : Renders d S render) (v : Value) :
    render (.sequence v.spliced) = render v := by
  rw [h.render_spliced, v.spliced_sequence_spliced, ← h.render_spliced]

/-- Values that have texts of their own are written as these, with commas between them. -/
theorem Renders.render_texts (h : Renders d S render) {α : Type} {value : α → Value}
    {text : α → String} {as : List α} (hvalue : ∀ a ∈ as, render (value a) = pure (text a))
    (hfilled : ∀ a ∈ as, text a ≠ "") :
    render (.sequence (as.map value)) = pure (Text.join ", " (as.map text)) := by
  have hactions : (as.map value).map render = as.map fun a => pure (text a) := by
    rw [List.map_map]
    exact List.map_congr_left hvalue
  have hmem : ∀ s ∈ as.map text, s ≠ "" := List.forall_mem_map.mpr hfilled
  rw [h.sequence, hactions, inOrder_map_pure, pure_bind, Text.joinFilled,
    List.filter_eq_self.mpr fun s hs => decide_eq_true (hmem s hs)]

end

/-- **Sequences in sequences are spliced.** In both renderers a sequence may be replaced by its
items wherever it stands in another one, and a tree of sequences is written as its values, one after
the other, with commas between those that are not empty. -/
theorem Value.render_sequence_spliced (d : Dialect) :
    (∀ xs ys zs : List Value,
      (Value.sequence (xs ++ [.sequence ys] ++ zs)).compile d =
          (Value.sequence (xs ++ ys ++ zs)).compile d ∧
        (Value.sequence (xs ++ [.sequence ys] ++ zs)).prepare d =
          (Value.sequence (xs ++ ys ++ zs)).prepare d) ∧
    ∀ v : Value,
      v.compile d = (do
        let parts ← inOrder (v.spliced.map (Value.compile d))
        return ", ".intercalate (parts.filter (· ≠ ""))) ∧
      v.prepare d = (do
        let (parts, bound) ← (inOrder (v.spliced.map (Value.binding d))).run #[]
        return ⟨", ".intercalate (parts.filter (· ≠ "")), bound.toList⟩) := by
  have hcompile := (renders_compile d).render_spliced
  have hbinding := (renders_binding d).render_spliced
  refine ⟨fun xs ys zs => ⟨?_, ?_⟩, fun v => ⟨?_, ?_⟩⟩
  · rw [hcompile, spliced_sequence_sequence, ← hcompile]
  · rw [prepare, hbinding, spliced_sequence_sequence, ← hbinding, prepare]
  · simp only [← Text.join_eq_intercalate]
    exact hcompile v
  · simp only [← Text.join_eq_intercalate]
    rw [prepare, hbinding, StateT.run_bind, bind_assoc]
    rfl

end PortableSql
