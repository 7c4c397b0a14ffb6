import PortableSql.Proofs.Conditions.Fragments
import PortableSql.Proofs.Statement.Calls
import PortableSql.Proofs.Template.Extension

/-!
# Builders append at seams

Chains of conditions, tables to select from and compound queries keep one template and append to it.
All that they append opens with a blank, a comma, a parenthesis or a question mark, so that the
placeholders which stand in the template already are recognised as before.

* `Conditions.appended`, `Conditions.appendedBy`: the fragments that a step, and steps in order,
  append to a chain; `Conditions.takesBack`: the step that appends none and takes a group back.
* **`Conditions.appends_run`**, `Conditions.appends_toExpression`: steps and the parentheses due at
  the end.
* `Conditions.appends_of_takesBack`: a group that is taken back had been appended at seams.
* `Expression.appends_linked`: values linked to a first one; **`FromClause.appends_calls`**,
  **`Compound.appends_calls`**.
* **`Template.split_at_seams`**: splitting part by part, and the builders that rely on it.
-/

namespace PortableSql

open Template (Appends appends_of_isBreak)

/-! ## Chains of conditions -/

namespace Conditions

open Fragment (joining opening closing)

/-- The connective that is due before an item. -/
def due (c : Conditions) (logic : String) : List Fragment := if c.fresh then [] else [joining logic]

/-- **The fragments that a step appends** to the template of a chain. -/
def appended (c : Conditions) : Step → List Fragment
  | .add logic left operator right => c.due logic ++ [.predicate left operator right]
  | .addValue logic v => c.due logic ++ [.value v]
  | .openGroup logic => c.due logic ++ [opening]
  | .closeGroup => if c.groups.isEmpty then [] else [closing]
  | .closeEmpty => if c.fresh || c.groups.isEmpty then [] else [closing]

/-- The step takes a group back. -/
def takesBack (c : Conditions) : Step → Bool
  | .closeEmpty => c.fresh && !c.groups.isEmpty
  | _ => false

/-- The fragments that steps append one after another. -/
def appendedBy (c : Conditions) : List Step → List Fragment
  | [] => []
  | s :: steps => c.appended s ++ (c.step s).appendedBy steps

/-- None of the steps takes a group back. -/
def takesNoneBack (c : Conditions) : List Step → Bool
  | [] => true
  | s :: steps => !c.takesBack s && (c.step s).takesNoneBack steps

theorem template_connect (c : Conditions) (logic : String) :
    (c.connect logic).template = c.template ++ Text.join "" ((c.due logic).map Fragment.text) := by
  rw [connect, due]
  cases c.fresh
  · rfl
  · exact String.append_empty.symm

theorem template_closeGroup (c : Conditions) :
    c.closeGroup.template = c.template ++
      Text.join "" ((if c.groups.isEmpty then [] else [closing]).map Fragment.text) := by
  rw [closeGroup]
  cases c.groups with
  | nil => exact String.append_empty.symm
  | cons group groups => rfl

/-- A step that takes nothing back appends its fragments. -/
theorem template_step (c : Conditions) {s : Step} (h : c.takesBack s = false) :
    (c.step s).template = c.template ++ Text.join "" ((c.appended s).map Fragment.text) := by
  have hitem (logic : String) (f : Fragment) : (c.connect logic).template ++ f.text =
      c.template ++ Text.join "" ((c.due logic ++ [f]).map Fragment.text) := by
    rw [template_connect, List.map_append, List.map_singleton, Text.join_empty_append, Text.join,
      String.append_assoc]
  cases s with
  | add logic left operator right =>
    simp only [step, add, push, appended, ← hitem, Fragment.predicate]
  | addValue logic v => simp only [step, addValue, push, appended, ← hitem, Fragment.value]
  | openGroup logic => simp only [step, openGroup, push, appended, ← hitem, opening]
  | closeGroup => exact c.template_closeGroup
  | closeEmpty =>
    rw [step, closeEmpty, appended]
    cases hfresh : c.fresh with
    | false => exact c.template_closeGroup
    | true =>
      rw [takesBack, hfresh, Bool.true_and, Bool.not_eq_false'] at h
      rw [List.isEmpty_iff.mp h]
      exact String.append_empty.symm

/-- A step appends no other fragments than its own. -/
theorem appended_sublist (c : Conditions) (s : Step) : (c.appended s).Sublist s.fragments := by
  have hdue (logic : String) : (c.due logic).Sublist [joining logic] := by
    rw [due]
    split_ifs
    · exact List.nil_sublist _
    · exact .refl _
  cases s with
  | add logic left operator right => exact (hdue logic).append (.refl _)
  | addValue logic v => exact (hdue logic).append (.refl _)
  | openGroup logic => exact (hdue logic).append (.refl _)
  | closeGroup | closeEmpty =>
    rw [appended]
    split_ifs
    · exact List.nil_sublist _
    · exact .refl _

/-- **A step appends its fragments at seams**, unless it takes a group back. -/
theorem appends_step (c : Conditions) {s : Step} (h : c.takesBack s = false) :
    Appends c.template ((c.appended s).map Fragment.text) (c.step s).template := by
  rw [c.template_step h]
  refine appends_of_isBreak c.template fun x hx => ?_
  obtain ⟨f, hf, rfl⟩ := List.mem_map.mp hx
  exact Step.standsApart ((c.appended_sublist s).subset hf)

/-- **Steps append at seams**, as long as no group is taken back. -/
theorem appends_run {c : Conditions} {steps : List Step} (h : c.takesNoneBack steps = true) :
    Appends c.template ((c.appendedBy steps).map Fragment.text) (c.run steps).template := by
  induction steps generalizing c with
  | nil => exact .nil
  | cons s steps ih =>
    obtain ⟨hs, hsteps⟩ := Bool.and_eq_true_iff.mp h
    rw [appendedBy, List.map_append]
    exact (c.appends_step ((Bool.not_eq_true' _).mp hs)).trans (ih hsteps)

/-- The parentheses that are due at the end are appended at seams. -/
theorem appends_toExpression (c : Conditions) :
    Appends c.template (List.replicate c.depth ")") c.toExpression.template := by
  have hjoin (n : Nat) :
      String.ofList (List.replicate n ')') = Text.join "" (List.replicate n ")") := by
    induction n with
    | zero => rfl
    | succ n ih =>
      rw [List.replicate_succ, List.replicate_succ, String.ofList_cons, Text.join_empty_cons, ih]
      rfl
  rw [toExpression, Expression.withParameters, hjoin]
  refine appends_of_isBreak c.template fun f hf => ?_
  rw [List.eq_of_mem_replicate hf]
  exact Fragment.standsApart_closing

/-- **What is taken back had been appended at seams.** -/
theorem appends_of_takesBack (steps : List Step)
    (h : (empty.run steps).takesBack .closeEmpty = true) :
    let c := empty.run steps
    ∃ logic, Appends c.closeEmpty.template
      ((c.closeEmpty.appended (.openGroup logic)).map Fragment.text) c.template := by
  intro c
  have hc : c = (Outline.run steps).written := Outline.run_written steps
  rw [Outline.run_written] at h
  rw [hc]
  obtain ⟨hfresh, hgroups⟩ := Bool.and_eq_true_iff.mp h
  cases ho : Outline.run steps with
  | chain items =>
    rw [ho] at hgroups
    cases hgroups
  | inGroup outer logic items =>
    rw [ho] at hfresh
    obtain rfl : items = [] := List.isEmpty_iff.mp hfresh
    -- the chain around the group, and the opening that is taken back
    have hclose : (Outline.inGroup outer logic []).written.closeEmpty = outer.written :=
      Outline.closeEmpty_written _
    have hopen : (Outline.inGroup outer logic []).written = outer.written.step (.openGroup logic) :=
      (Outline.step_written outer (.openGroup logic)).symm
    rw [hclose, hopen]
    exact ⟨logic, outer.written.appends_step rfl⟩

end Conditions

/-! ## Linked values -/

/-- Further links are appended at seams, if they open with a break. -/
theorem Expression.appends_linked (first : Value) (links more : List (String × Value))
    (h : ∀ link ∈ more, ∃ c ∈ link.1.toList.head?, Text.isBreak c = true) :
    Appends (linked first links).template (more.map (·.1))
      (linked first (links ++ more)).template := by
  rw [linked, linked, withParameters, withParameters, List.map_append, Text.join_empty_append,
    ← String.append_assoc]
  refine appends_of_isBreak _ fun x hx => ?_
  obtain ⟨link, hlink, rfl⟩ := List.mem_map.mp hx
  exact h link hlink

/-- The text of a part opens with a comma or a blank. -/
theorem FromClause.Part.isBreak_link (p : Part) :
    ∃ c ∈ p.link.1.toList.head?, Text.isBreak c = true := by
  rcases p with v | ⟨kind, v⟩ | c | names
  · exact ⟨',', by simp [link], by decide⟩
  · exact ⟨' ', by simp [link], by decide⟩
  · exact ⟨' ', by simp [link], by decide⟩
  · exact ⟨' ', by simp [link], by decide⟩

/-- The text of an operand opens with a blank. -/
theorem Compound.Operand.isBreak_link (o : Operand) :
    ∃ c ∈ o.link.1.toList.head?, Text.isBreak c = true :=
  ⟨' ', by simp [link], by decide⟩

theorem FromClause.foldl_call (f : FromClause) (calls : List Call) :
    calls.foldl call f = { f with parts := f.parts ++ calls.map Call.part } := by
  induction calls generalizing f with
  | nil => rw [List.map_nil, List.append_nil]; rfl
  | cons k calls ih =>
    rw [List.foldl_cons, ih, List.map_cons, List.append_cons]
    cases k <;> rfl

/-- **Calls on the tables to select from append at seams.** -/
theorem FromClause.appends_calls (f : FromClause) (calls : List Call) :
    Appends f.toExpression.template (calls.map fun k => k.part.link.1)
      (calls.foldl call f).toExpression.template := by
  have h := Expression.appends_linked f.first (f.parts.map Part.link)
    (calls.map fun k => k.part.link) fun link hlink => by
      obtain ⟨k, -, rfl⟩ := List.mem_map.mp hlink
      exact k.part.isBreak_link
  rw [foldl_call, toExpression, toExpression, List.map_append, List.map_map]
  rwa [List.map_map] at h

theorem Compound.foldl_call (c : Compound) (calls : List Call) :
    (calls.foldl call c).first = c.first ∧
      (calls.foldl call c).operands = c.operands ++ calls.filterMap Call.operand? := by
  induction calls generalizing c with
  | nil => exact ⟨rfl, (List.append_nil _).symm⟩
  | cons k calls ih =>
    obtain ⟨hfirst, hoperands⟩ := ih (c.call k)
    rw [List.foldl_cons, hfirst, hoperands]
    cases k with
    | combine o => exact ⟨rfl, (List.append_cons _ _ _).symm⟩
    | orderBy item => exact ⟨rfl, rfl⟩
    | limit n => exact ⟨rfl, rfl⟩
    | offset n => exact ⟨rfl, rfl⟩

/-- **Calls on a compound query append at seams.** -/
theorem Compound.appends_calls (c : Compound) (calls : List Call) :
    Appends c.queries.template ((calls.filterMap Call.operand?).map fun o => o.link.1)
      (calls.foldl call c).queries.template := by
  obtain ⟨hfirst, hoperands⟩ := c.foldl_call calls
  have h := Expression.appends_linked c.first (c.operands.map Operand.link)
    ((calls.filterMap Call.operand?).map Operand.link) fun link hlink => by
      obtain ⟨o, -, rfl⟩ := List.mem_map.mp hlink
      exact o.isBreak_link
  rw [queries, queries, hfirst, hoperands, List.map_append]
  rwa [List.map_map] at h

/-! ## Splitting part by part -/

/-- **Splitting goes part by part at seams, and builders append at seams only.** For any two texts
that meet at a seam, the pieces are those of the first followed by those of the second, with a text
at the end and a text at the start made one. So a text to which fragments are appended at seams
keeps its placeholders and has those of the fragments after them. Conditions, tables to select from
and compound queries append in this way, in whatever state they are, and the groups of conditions
that are taken back were appended in this way too. -/
theorem Template.split_at_seams :
    (∀ s t : String, Seam s.toList t.toList → split (s ++ t) = merge (split s) (split t)) ∧
    (∀ (s t : String) (fragments : List String), Appends s fragments t →
      split t = fragments.foldl (fun ps fragment => merge ps (split fragment)) (split s) ∧
        placeholders t = placeholders s ++ fragments.flatMap placeholders) ∧
    (∀ (c : Conditions) (calls : List Conditions.Call),
      let steps := calls.map Conditions.Call.meaning
      c.takesNoneBack steps = true → Appends c.template
        ((c.appendedBy steps).map Conditions.Fragment.text)
        (calls.foldl Conditions.call c).template) ∧
    (∀ calls : List Conditions.Call,
      let c := calls.foldl Conditions.call Conditions.empty
      c.takesBack .closeEmpty = true → ∃ logic, Appends c.closeEmpty.template
        ((c.closeEmpty.appended (.openGroup logic)).map Conditions.Fragment.text) c.template) ∧
    (∀ c : Conditions, Appends c.template (List.replicate c.depth ")") c.toExpression.template) ∧
    (∀ (f : FromClause) (calls : List FromClause.Call),
      Appends f.toExpression.template (calls.map fun k => k.part.link.1)
        (calls.foldl FromClause.call f).toExpression.template) ∧
    ∀ (c : Compound) (calls : List Compound.Call),
      Appends c.queries.template ((calls.filterMap Compound.Call.operand?).map fun o => o.link.1)
        (calls.foldl Compound.call c).queries.template := by
  refine ⟨fun s t => split_append_eq_merge, fun s t fragments h => ⟨h.split_eq, h.placeholders_eq⟩,
    fun c calls => ?_, fun calls => ?_, Conditions.appends_toExpression,
    FromClause.appends_calls, Compound.appends_calls⟩
  · intro steps h
    rw [Conditions.foldl_call]
    exact Conditions.appends_run h
  · intro c h
    have hc : c = Conditions.empty.run (calls.map Conditions.Call.meaning) :=
      Conditions.foldl_call _ _
    rw [hc] at h ⊢
    exact Conditions.appends_of_takesBack _ h

/-- Two texts with casts, a token at the end of the first one; and a chain with a token for an
operator, to which a group is appended, another one of which is taken back. -/
theorem Template.split_at_seams_casts :
    let column (name : String) : Value := .column (.dotted name)
    let s := "x::int = :id"
    let t := " AND ?::text"
    let c := (Conditions.empty.andValue (column "a")).or (column "b") ":op" (column "c")
    let calls : List Conditions.Call :=
      [.step (.openGroup "and"), .andValue (column "d"), .step .closeGroup]
    let c' := calls.foldl Conditions.call c
    let opened : List Conditions.Call := [.andValue (column "a"), .step (.openGroup "or")]
    let o := opened.foldl Conditions.call Conditions.empty
    Seam s.toList t.toList ∧ split (s ++ t) = merge (split s) (split t) ∧
      split (s ++ t) = [.text "x::int = ", .named ":id", .text " AND ", .positional,
        .text "::text"] ∧
      c.takesNoneBack (calls.map Conditions.Call.meaning) = true ∧
      Appends c.template [" AND ", "(", "?", ")"] c'.template ∧
      placeholders c'.template = placeholders c.template ++ [.positional] ∧
      placeholders c.template = [.positional, .positional, .named ":OP", .positional] ∧
      o.takesBack .closeEmpty = true ∧
      ∃ logic, Appends o.closeEmpty.template
        ((o.closeEmpty.appended (.openGroup logic)).map Conditions.Fragment.text) o.template := by
  intro column s t c calls c' opened o
  obtain ⟨hsplit, hpieces, hchain, htaken, -⟩ := split_at_seams
  have hseam : Seam s.toList t.toList := by decide
  have hnone : c.takesNoneBack (calls.map Conditions.Call.meaning) = true := by decide +kernel
  have hback : o.takesBack .closeEmpty = true := by decide +kernel
  have htexts : (c.appendedBy (calls.map Conditions.Call.meaning)).map Conditions.Fragment.text =
      [" AND ", "(", "?", ")"] := by decide +kernel
  have happends : Appends c.template [" AND ", "(", "?", ")"] c'.template := by
    rw [← htexts]
    exact hchain c calls hnone
  have hadded : [" AND ", "(", "?", ")"].flatMap placeholders = [.positional] := by decide +kernel
  refine ⟨hseam, hsplit s t hseam, by decide +kernel, hnone, happends, ?_, by decide +kernel, hback,
    htaken opened hback⟩
  rw [(hpieces _ _ _ happends).2, hadded]

end PortableSql
