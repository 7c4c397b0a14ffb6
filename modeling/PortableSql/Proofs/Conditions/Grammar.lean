import Mathlib.Data.List.Chain
import Mathlib.Data.List.Induction
import PortableSql.Proofs.Conditions.Marks
import PortableSql.Proofs.Text.Keyword

/-!
# Chains without empty groups

If groups are closed by `Conditions.closeEmpty` alone, no empty group is left behind, and what is
written is a chain: items with connectives between them, where an item is a predicate or a chain in
parentheses. A group that is open at the end is closed as it stands; if nothing has been added to it
since it was opened, it stays empty.

* **`Conditions.Chain`**, `Conditions.ChainItem`: the grammar of chains.
* `Conditions.Tight`: texts without an empty group, however they are put together.
* `Item.Proper`, `Outline.Proper`: items and outlines without empty groups.
* `Outline.Proper.step`, `Outline.Proper.run`: steps keep outlines proper.
* **`Conditions.LeavesEmptyGroup`**, `Conditions.leavesEmptyGroup_iff`: nothing has been added since
  the innermost open group was opened.
* **`Conditions.calls_write_chain`**: the template after any calls.
-/

namespace PortableSql

namespace Conditions

/-! ## The grammar -/

/-- The text holds neither parentheses nor the signs of placeholders. -/
def Bare (word : String) : Prop := ∀ c ∈ ['(', ')', '?', ':'], c ∉ word.toList

instance (word : String) : Decidable (Bare word) := List.decidableBAll _ _

mutual

/-- **Items with connectives between them.** -/
inductive Chain : String → Prop
  | one {s : String} (h : ChainItem s) : Chain s
  | more {s logic t : String} (hs : Chain s) (hlogic : Bare logic) (ht : ChainItem t) :
    Chain (s ++ (" " ++ logic ++ " ") ++ t)

/-- **A predicate**, which is a value alone if it has no operator, **or a chain in parentheses.** -/
inductive ChainItem : String → Prop
  | predicate {operator : String} (h : Bare operator) : ChainItem (predicateText operator)
  | group {s : String} (h : Chain s) : ChainItem ("(" ++ s ++ ")")

end

/-! ## No empty groups -/

/-- **The text has no empty group**, and does not make one with what stands next to it. -/
structure Tight (s : String) : Prop where
  chain : s.toList.IsChain fun a b => ¬ (a = '(' ∧ b = ')')
  head : s.toList.head? ≠ some ')'
  last : s.toList.getLast? ≠ some '('

namespace Tight

variable {s t : String}

theorem append (hs : Tight s) (ht : Tight t) : Tight (s ++ t) where
  chain := by
    rw [String.toList_append]
    exact hs.chain.append ht.chain fun a ha b _ hab => hs.last (hab.1 ▸ ha)
  head h := by
    rw [String.toList_append, List.head?_append, Option.or_eq_some_iff] at h
    exact h.elim hs.head fun h => ht.head h.2
  last h := by
    rw [String.toList_append, List.getLast?_append, Option.or_eq_some_iff] at h
    exact h.elim ht.last fun h => hs.last h.2

/-- A text without parentheses. -/
theorem of_not_mem (hopen : '(' ∉ s.toList) (hclose : ')' ∉ s.toList) : Tight s where
  chain := by
    refine List.isChain_iff_forall_rel_of_append_cons_cons.mpr fun a b before after h hab => ?_
    exact hopen (h ▸ hab.1 ▸ List.mem_append_right _ List.mem_cons_self)
  head h := hclose (List.mem_of_head? h)
  last h := hopen (List.mem_of_getLast? h)

theorem parenthesized (hs : Tight s) (hne : s ≠ "") : Tight ("(" ++ s ++ ")") := by
  have hlist : ("(" ++ s ++ ")").toList = '(' :: (s.toList ++ [')']) := by simp
  have hhead : (s.toList ++ [')']).head? ≠ some ')' := fun h => by
    rw [List.head?_append_of_ne_nil _ (by simpa using hne)] at h
    exact hs.head h
  refine ⟨?_, ?_, ?_⟩
  · rw [hlist]
    refine List.IsChain.cons ?_ fun b hb hab => hhead (hab.2 ▸ hb)
    exact hs.chain.append (List.isChain_singleton _) fun a ha b _ hab => hs.last (hab.1 ▸ ha)
  · rw [hlist, List.head?_cons]
    decide
  · rw [hlist, ← List.cons_append, List.getLast?_concat]
    decide

/-- An empty group does not stand in the text. -/
theorem ne_empty_group (hs : Tight s) (before after : String) : s ≠ before ++ "()" ++ after := by
  rintro rfl
  have hlist : (before ++ "()" ++ after).toList = before.toList ++ '(' :: ')' :: after.toList := by
    simp
  exact List.isChain_iff_forall_rel_of_append_cons_cons.mp hs.chain hlist ⟨rfl, rfl⟩

end Tight

theorem Bare.tight {word : String} (h : Bare word) : Tight word :=
  .of_not_mem (h '(' (by decide)) (h ')' (by decide))

theorem tight_predicateText {operator : String} (h : Bare operator) :
    Tight (predicateText operator) := by
  have hleft : Tight "? " := .of_not_mem (by decide) (by decide)
  rw [predicateText]
  split_ifs
  · exact .of_not_mem (by decide) (by decide)
  · exact (hleft.append h.tight).append ⟨by decide, by decide, by decide⟩
  · exact (hleft.append h.tight).append (.of_not_mem (by decide) (by decide))
  · exact (hleft.append h.tight).append (.of_not_mem (by decide) (by decide))

theorem predicateText_ne_empty (operator : String) : predicateText operator ≠ "" := by
  rw [predicateText]
  split_ifs <;> simp

/-- **A chain is not empty and has no empty group.** -/
theorem Chain.tight {s : String} (h : Chain s) : Tight s ∧ s ≠ "" := by
  refine @Chain.rec (fun s _ => Tight s ∧ s ≠ "") (fun s _ => Tight s ∧ s ≠ "") ?_ ?_ ?_ ?_ s h
  · exact fun _ ih => ih
  · intro s logic t _ hlogic _ hs ht
    have hspace : Tight " " := .of_not_mem (by decide) (by decide)
    refine ⟨(hs.1.append ((hspace.append hlogic.tight).append hspace)).append ht.1, ?_⟩
    simp
  · exact fun h => ⟨tight_predicateText h, predicateText_ne_empty _⟩
  · exact fun _ ih => ⟨ih.1.parenthesized ih.2, by simp⟩

/-! ## Items without empty groups -/

theorem Bare.keyword {word : String} (h : Bare word) : Bare (Text.keyword word) := by
  have hsigns : ['(', ')', '?', ':'].all Text.isSign = true := by decide
  exact fun c hc hmem => h c hc (Text.mem_of_mem_keyword (List.all_eq_true.mp hsigns c hc) hmem)

namespace Item

/-- **An item with bare words and without empty groups.** -/
inductive Proper : Item → Prop
  | predicate {logic operator : String} (hlogic : Bare logic) (hoperator : Bare operator)
    (left right : Value) : Proper (.predicate logic left operator right)
  | value {logic : String} (hlogic : Bare logic) (v : Value) : Proper (.value logic v)
  | group {logic : String} {items : List Item} (hlogic : Bare logic) (hne : items ≠ [])
    (h : ∀ i ∈ items, Proper i) : Proper (.group logic items)

theorem Proper.bare_logic {item : Item} (h : item.Proper) : Bare item.logic := by
  cases h with
  | predicate hlogic => exact hlogic
  | value hlogic => exact hlogic
  | group hlogic => exact hlogic

/-- Items are a chain if each is an item of one. -/
theorem chain_chainText {items : List Item} (hne : items ≠ [])
    (h : ∀ i ∈ items, Bare i.logic ∧ ChainItem i.text) : Chain (chainText items) := by
  induction items using List.reverseRecOn with
  | nil => exact (hne rfl).elim
  | append_singleton items i ih =>
    obtain ⟨hitems, hi⟩ := List.forall_mem_append.mp h
    obtain ⟨hlogic, hi⟩ := List.forall_mem_singleton.mp hi
    rw [chainText_append]
    by_cases hempty : items = []
    · subst hempty
      have htext : chainText [] ++ connective [] i.logic ++ i.text = i.text := by
        simp [chainText, connective]
      rw [htext]
      exact .one hi
    · rw [connective, if_neg (by simpa using hempty)]
      exact .more (ih hempty hitems) hlogic.keyword hi

theorem Proper.chainItem {item : Item} (h : item.Proper) : ChainItem item.text := by
  induction h with
  | predicate hlogic hoperator left right => exact .predicate hoperator.keyword
  | value hlogic v =>
    have hbare : Bare "" := nofun
    exact .predicate hbare
  | group hlogic hne h ih =>
    exact .group (chain_chainText hne fun i hi => ⟨(h i hi).bare_logic, ih i hi⟩)

end Item

/-! ## Outlines without empty groups -/

/-- The connective and the operator that a step is given. -/
def Step.words : Step → List String
  | .add logic _ operator _ => [logic, operator]
  | .addValue logic _ => [logic]
  | .openGroup logic => [logic]
  | .closeGroup | .closeEmpty => []

namespace Outline

/-- **An outline with bare words and without empty groups among its items**; its open groups may be
empty so far. -/
inductive Proper : Outline → Prop
  | chain {items : List Item} (h : ∀ i ∈ items, i.Proper) : Proper (.chain items)
  | inGroup {outer : Outline} {logic : String} {items : List Item} (houter : Proper outer)
    (hlogic : Bare logic) (h : ∀ i ∈ items, i.Proper) : Proper (.inGroup outer logic items)

namespace Proper

variable {o : Outline}

theorem items (h : o.Proper) : ∀ i ∈ o.items, i.Proper := by
  cases h with
  | chain h => exact h
  | inGroup _ _ h => exact h

theorem append (h : o.Proper) {item : Item} (hitem : item.Proper) : (o.append item).Proper := by
  cases h with
  | chain h => exact .chain (List.forall_mem_append.mpr ⟨h, List.forall_mem_singleton.mpr hitem⟩)
  | inGroup houter hlogic h =>
    exact .inGroup houter hlogic
      (List.forall_mem_append.mpr ⟨h, List.forall_mem_singleton.mpr hitem⟩)

/-- Closing a group that has items leaves a frame that has items. -/
theorem closeGroup (h : o.Proper) (hne : o.items ≠ []) :
    o.closeGroup.Proper ∧ o.closeGroup.items ≠ [] := by
  cases h with
  | chain h => exact ⟨.chain h, hne⟩
  | inGroup houter hlogic h =>
    refine ⟨houter.append (.group hlogic hne h), ?_⟩
    rw [Outline.closeGroup, items_append]
    simp

theorem closeEmpty (h : o.Proper) : o.closeEmpty.Proper := by
  cases h with
  | chain h => exact .chain h
  | @inGroup outer logic items houter hlogic h =>
    cases items with
    | nil => exact houter
    | cons i items => exact (closeGroup (.inGroup houter hlogic h) (List.cons_ne_nil i items)).1

/-- **A step other than closing a group as it stands keeps an outline proper.** -/
theorem step (h : o.Proper) {s : Step} (hclose : s ≠ .closeGroup) (hbare : ∀ w ∈ s.words, Bare w) :
    (o.step s).Proper := by
  cases s with
  | add logic left operator right =>
    obtain ⟨hlogic, hoperator⟩ := List.forall_mem_cons.mp hbare
    exact h.append (.predicate hlogic (List.forall_mem_singleton.mp hoperator) left right)
  | addValue logic v => exact h.append (.value (List.forall_mem_singleton.mp hbare) v)
  | openGroup logic =>
    exact .inGroup h (List.forall_mem_singleton.mp hbare) fun _ h => nomatch h
  | closeGroup => exact (hclose rfl).elim
  | closeEmpty => exact h.closeEmpty

/-- **Steps other than closing groups as they stand write proper outlines.** -/
theorem run {steps : List Step} (hclose : ∀ s ∈ steps, s ≠ .closeGroup)
    (hbare : ∀ s ∈ steps, ∀ w ∈ s.words, Bare w) : (Outline.run steps).Proper := by
  have hrun : ∀ o : Outline, o.Proper → (steps.foldl Outline.step o).Proper := by
    induction steps with
    | nil => exact fun _ h => h
    | cons s steps ih =>
      obtain ⟨hs, hclose⟩ := List.forall_mem_cons.mp hclose
      obtain ⟨hwords, hbare⟩ := List.forall_mem_cons.mp hbare
      exact fun o h => ih hclose hbare _ (h.step hs hwords)
  exact hrun _ (.chain fun _ h => nomatch h)

theorem closeAll (h : o.Proper) (hne : o.items ≠ []) :
    (∀ i ∈ o.closeAll, i.Proper) ∧ o.closeAll ≠ [] := by
  have hiterate : ∀ (n : Nat) (o : Outline), o.Proper → o.items ≠ [] →
      (Outline.closeGroup^[n] o).Proper ∧ (Outline.closeGroup^[n] o).items ≠ [] := by
    intro n
    induction n with
    | zero => exact fun _ h hne => ⟨h, hne⟩
    | succ n ih =>
      intro o h hne
      obtain ⟨hclosed, hne⟩ := h.closeGroup hne
      exact ih _ hclosed hne
  obtain ⟨hclosed, hne⟩ := hiterate o.depth o h hne
  exact ⟨hclosed.items, hne⟩

/-- If the innermost frame has items, what is written is a chain. -/
theorem chain_template (h : o.Proper) (hne : o.items ≠ []) :
    Chain o.written.toExpression.template := by
  obtain ⟨hitems, hne⟩ := h.closeAll hne
  rw [toExpression_written]
  exact Item.chain_chainText hne fun i hi => ⟨(hitems i hi).bare_logic, (hitems i hi).chainItem⟩

end Proper

/-- Without items in the innermost frame, nothing is written if no group is open. -/
theorem template_of_depth_eq_zero {o : Outline} (hitems : o.items = []) (hdepth : o.depth = 0) :
    o.written.toExpression.template = "" := by
  cases o with
  | chain items =>
    cases hitems
    rfl
  | inGroup outer logic items => cases hdepth

end Outline

/-! ## Groups that are left empty -/

/-- **Nothing has been added since the innermost open group was opened**: groups may only have been
opened in it and taken back. -/
def LeavesEmptyGroup (steps : List Step) : Prop :=
  ∃ before logic inner, steps = before ++ .openGroup logic :: inner ∧ Nested inner

/-- After such steps the chain is the one in which the group has just been opened. -/
theorem run_openGroup_of_nested {inner : List Step} (h : Nested inner) (c : Conditions)
    (before : List Step) (logic : String) :
    c.run (before ++ .openGroup logic :: inner) = (c.run before).openGroup logic := by
  rw [run, List.foldl_append, List.foldl_cons]
  exact run_of_nested h _

theorem Outline.append_ne_inGroup (o : Outline) (item : Item) (outer : Outline) (logic : String) :
    o.append item ≠ .inGroup outer logic [] := by
  intro h
  have hitems : o.items ++ [item] = [] := (o.items_append item).symm.trans (congrArg items h)
  simp at hitems

/-- A group without items was opened by a step after which groups have only been opened and taken
back. -/
theorem Outline.exists_opening {steps : List Step} {outer : Outline} {logic : String}
    (h : run steps = .inGroup outer logic []) : ∃ before inner,
      steps = before ++ .openGroup logic :: inner ∧ Nested inner ∧ run before = outer := by
  -- by the last step; if that takes a group back, the one around it was left empty before
  induction hlength : steps.length using Nat.strong_induction_on
    generalizing steps outer logic with
  | _ n ih =>
    subst hlength
    rcases List.eq_nil_or_concat' steps with rfl | ⟨init, s, rfl⟩
    · cases h
    have hlt : init.length < (init ++ [s]).length := by simp
    rw [run, List.foldl_append] at h
    change (run init).step s = _ at h
    cases s with
    | add logic' left operator right => exact absurd h (append_ne_inGroup _ _ outer logic)
    | addValue logic' v => exact absurd h (append_ne_inGroup _ _ outer logic)
    | openGroup logic' =>
      cases h
      exact ⟨init, [], rfl, .nil, rfl⟩
    | closeGroup =>
      cases ho : run init with
      | chain items =>
        rw [ho] at h
        cases h
      | inGroup outer' logic' items =>
        rw [ho] at h
        exact absurd h (append_ne_inGroup _ _ outer logic)
    | closeEmpty =>
      cases ho : run init with
      | chain items =>
        rw [ho] at h
        cases h
      | inGroup outer' logic' items =>
        rw [ho] at h
        cases items with
        | cons item items => exact absurd h (append_ne_inGroup _ _ outer logic)
        | nil =>
          obtain rfl : outer' = .inGroup outer logic [] := h
          obtain ⟨before, taken, rfl, htaken, hbefore⟩ := ih _ hlt ho rfl
          have hshorter : before.length <
              (before ++ .openGroup logic' :: taken ++ [Step.closeEmpty]).length := by
            simp only [List.length_append, List.length_cons]
            omega
          obtain ⟨before, inner, rfl, hinner, houter⟩ := ih _ hshorter hbefore rfl
          refine ⟨before, inner ++ .openGroup logic' :: (taken ++ [.closeEmpty]), by simp, ?_,
            houter⟩
          exact hinner.append (.group logic' htaken .nil)

/-- **The chain shows whether a group is left empty**: an item is due in its innermost group. -/
theorem leavesEmptyGroup_iff (steps : List Step) :
    LeavesEmptyGroup steps ↔ (empty.run steps).fresh = true ∧ 0 < (empty.run steps).depth := by
  constructor
  · rintro ⟨before, logic, inner, rfl, hinner⟩
    rw [run_openGroup_of_nested hinner]
    exact ⟨rfl, Nat.succ_pos _⟩
  · rintro ⟨hfresh, hdepth⟩
    rw [Outline.run_written] at hfresh hdepth
    rw [Outline.depth_written] at hdepth
    cases ho : Outline.run steps with
    | chain items =>
      rw [ho] at hdepth
      cases hdepth
    | inGroup outer logic items =>
      rw [ho] at hfresh
      obtain rfl : items = [] := List.isEmpty_iff.mp hfresh
      obtain ⟨before, inner, hsteps, hinner, -⟩ := Outline.exists_opening ho
      exact ⟨before, logic, inner, hsteps, hinner⟩

/-- A group that has just been opened is written as an empty one. -/
theorem template_openGroup (c : Conditions) (logic : String) :
    (c.openGroup logic).toExpression.template =
      (c.connect logic).template ++ "()" ++ String.ofList (List.replicate c.depth ')') := by
  have hparentheses : "(" ++ String.ofList (List.replicate (c.depth + 1) ')') =
      "()" ++ String.ofList (List.replicate c.depth ')') := by
    rw [List.replicate_succ, String.ofList_cons, ← String.append_assoc]
    rfl
  have hdepth : (c.openGroup logic).depth = c.depth + 1 := rfl
  rw [toExpression, hdepth, String.append_assoc, ← hparentheses, ← String.append_assoc]
  rfl

/-- **Chains whose groups are closed by `closeEmpty` alone are well formed.** If their words are
bare, nothing is written or a chain, so that there is no empty group and no connective without an
item on each side; groups that are still open are closed. Only if nothing has been added since the
innermost of them was opened, it is written as an empty one, with the parentheses of those around it
after it. -/
theorem calls_write_chain {calls : List Call} (hclose : ∀ k ∈ calls, k.meaning ≠ .closeGroup)
    (hbare : ∀ k ∈ calls, ∀ w ∈ k.meaning.words, Bare w) :
    let steps := calls.map Call.meaning
    let template := (calls.foldl call empty).toExpression.template
    (¬ LeavesEmptyGroup steps →
      (template = "" ∨ Chain template) ∧ ∀ s t, template ≠ s ++ "()" ++ t) ∧
    ∀ before logic inner, steps = before ++ .openGroup logic :: inner → Nested inner →
      template = ((empty.run before).connect logic).template ++ "()" ++
        String.ofList (List.replicate (empty.run before).depth ')') := by
  intro steps template
  have hproper : (Outline.run steps).Proper :=
    .run (List.forall_mem_map.mpr hclose) (List.forall_mem_map.mpr hbare)
  have htemplate : template = (empty.run steps).toExpression.template := by
    rw [← foldl_call]
  refine ⟨fun h => ?_, fun before logic inner hsteps hinner => ?_⟩
  · rw [leavesEmptyGroup_iff, Outline.run_written, Outline.depth_written] at h
    rw [htemplate, Outline.run_written]
    by_cases hitems : (Outline.run steps).items = []
    · have hdepth := Nat.eq_zero_of_not_pos fun hdepth => h ⟨List.isEmpty_iff.mpr hitems, hdepth⟩
      have hnone := Outline.template_of_depth_eq_zero hitems hdepth
      refine ⟨.inl hnone, fun s t h => ?_⟩
      rw [hnone] at h
      simp at h
    · have hchain := hproper.chain_template hitems
      exact ⟨.inr hchain, hchain.tight.1.ne_empty_group⟩
  · rw [htemplate, hsteps, run_openGroup_of_nested hinner, template_openGroup]

/-- A group taken back inside another one, which then gets an item and stays open. -/
theorem calls_write_chain_left_open :
    let column (name : String) : Value := .column (.dotted name)
    let int (n : Int64) : Value := .literal (.int n)
    let calls : List Call := [.and (column "a") "=" (int 1), .step (.openGroup "or"),
      .step (.openGroup " and"), .step (.openGroup "and"), .step .closeEmpty, .step .closeEmpty,
      .andIn (column "b") [int 2, int 3], .step (.openGroup "or"), .or (column "c") "" (int 4)]
    let c := calls.foldl call empty
    let template := c.toExpression.template
    (∀ k ∈ calls, k.meaning ≠ .closeGroup) ∧ (∀ k ∈ calls, ∀ w ∈ k.meaning.words, Bare w) ∧
      c.depth = 2 ∧ template = "? = ? OR (? IN (?) OR (?))" ∧ Chain template := by
  intro column int calls c template
  have hclose : ∀ k ∈ calls, k.meaning ≠ .closeGroup := by
    simp [calls, Call.meaning]
  have hbare : ∀ k ∈ calls, ∀ w ∈ k.meaning.words, Bare w := by
    simp only [calls, Call.meaning]
    decide
  have htemplate : template = "? = ? OR (? IN (?) OR (?))" := by decide
  have hfresh : c.fresh = false := by decide
  have hleft : ¬ LeavesEmptyGroup (calls.map Call.meaning) := fun h => by
    rw [leavesEmptyGroup_iff, ← foldl_call] at h
    exact nomatch hfresh.symm.trans h.1
  obtain ⟨hchain, -⟩ := (calls_write_chain hclose hbare).1 hleft
  have hne : template ≠ "" := fun h => nomatch htemplate.symm.trans h
  exact ⟨hclose, hbare, by decide, htemplate, hchain.resolve_left hne⟩

/-- **A group without items that is open at the end is written**, so that the template is no
chain. -/
theorem calls_write_empty_group :
    let calls : List Call := [.and (.column (.dotted "a")) "=" (.literal (.int 1)),
      .step (.openGroup "or")]
    let template := (calls.foldl call empty).toExpression.template
    (∀ k ∈ calls, k.meaning ≠ .closeGroup) ∧ (∀ k ∈ calls, ∀ w ∈ k.meaning.words, Bare w) ∧
      template = "? = ? OR ()" ∧ ¬ (template = "" ∨ Chain template) := by
  intro calls template
  have hclose : ∀ k ∈ calls, k.meaning ≠ .closeGroup := by
    simp [calls, Call.meaning]
  have hbare : ∀ k ∈ calls, ∀ w ∈ k.meaning.words, Bare w := by
    simp only [calls, Call.meaning]
    decide
  have htemplate : template = "? = ? OR ()" := by decide
  refine ⟨hclose, hbare, htemplate, ?_⟩
  rw [htemplate]
  rintro (h | h)
  · simp at h
  · exact h.tight.1.ne_empty_group "? = ? OR " "" rfl

end Conditions

end PortableSql
