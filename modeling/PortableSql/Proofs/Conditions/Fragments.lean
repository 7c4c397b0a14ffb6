import Mathlib.Data.List.Induction
import PortableSql.Proofs.Conditions.Outline
import PortableSql.Proofs.Statement.Assembly
import PortableSql.Proofs.Template.Placeholders

/-!
# The fragments of a chain

A chain is put together from fragments: predicates and values with the operands that their
placeholders take, and connectives and parentheses without operands. A step writes the fragments
of that step and takes back none that has operands.

* **`Conditions.Fragment`**, `Fragment.expression`: an expression put together from fragments;
  `Fragment.placeholders_expression`: its placeholders are those of the fragments.
* `Item.chainFragments`, `Outline.fragments`: the fragments of items and of an outline.
* `Step.added?`: what a step adds; `Step.fragments`: what it may write.
* `Outline.filter_fragments_step`, `Outline.mem_fragments_step`: the fragments after a step.
* `Conditions.added`; **`Conditions.exists_fragments`**: the expression of a chain after any calls.
-/

namespace PortableSql

/-- The placeholders of a template that is put together at seams. -/
theorem Template.placeholders_join {texts : List String} (h : Seams texts) :
    placeholders (Text.join "" texts) = texts.flatMap placeholders := by
  induction texts with
  | nil => decide
  | cons s texts ih =>
    cases texts with
    | nil => rw [Text.join, List.flatMap_singleton]
    | cons t texts =>
      have hrest : Seams (t :: texts) := (List.isChain_cons_cons.mp h).2
      rw [Text.join_empty_cons, placeholders_append h.seam_join, ih hrest]
      rfl

namespace Conditions

/-! ## Fragments -/

/-- **A part of the template of a chain**, with the values of its placeholders. -/
structure Fragment where
  text : String
  operands : List Value

namespace Fragment

/-- A connective. -/
def joining (logic : String) : Fragment := ⟨" " ++ Text.keyword logic ++ " ", []⟩

/-- An opening parenthesis. -/
def opening : Fragment := ⟨"(", []⟩

/-- A closing parenthesis. -/
def closing : Fragment := ⟨")", []⟩

/-- A predicate. -/
def predicate (left : Value) (operator : String) (right : Value) : Fragment :=
  ⟨predicateText (Text.keyword operator), predicateOperands (Text.keyword operator) left right⟩

/-- A value that stands as an item. -/
def value (v : Value) : Fragment := ⟨"?", [v]⟩

/-- The fragment has operands. -/
def hasOperands (f : Fragment) : Bool := !f.operands.isEmpty

/-- The placeholders of the text. -/
def placeholders (f : Fragment) : List Piece := Template.placeholders f.text

/-- **The expression that fragments make up.** -/
def expression (fs : List Fragment) : Expression :=
  .withParameters (Text.join "" (fs.map text)) (fs.flatMap operands)

theorem expression_singleton (f : Fragment) :
    expression [f] = .withParameters f.text f.operands := by
  rw [expression, List.flatMap_singleton, List.map_singleton, Text.join]

theorem expression_append {fs gs : List Fragment} {s t : String} {vs ws : List Value}
    (h : expression fs = .withParameters s vs) (h' : expression gs = .withParameters t ws) :
    expression (fs ++ gs) = .withParameters (s ++ t) (vs ++ ws) := by
  obtain ⟨hs, hvs, -⟩ := Expression.mk.inj h
  obtain ⟨ht, hws, -⟩ := Expression.mk.inj h'
  rw [expression, List.map_append, Text.join_empty_append, List.flatMap_append, hs, ht, hvs, hws]

/-- The text opens with a character that no token runs across. -/
def StandsApart (f : Fragment) : Prop := ∃ c ∈ f.text.toList.head?, Text.isBreak c = true

theorem standsApart_closing : closing.StandsApart := ⟨')', rfl, by decide⟩

theorem standsApart_opening : opening.StandsApart := ⟨'(', rfl, by decide⟩

theorem standsApart_value (v : Value) : (value v).StandsApart :=
  ⟨'?', by simp [value], by decide⟩

theorem standsApart_joining (logic : String) : (joining logic).StandsApart :=
  ⟨' ', by simp [joining], by decide⟩

theorem standsApart_predicate (left : Value) (operator : String) (right : Value) :
    (predicate left operator right).StandsApart := by
  refine ⟨'?', ?_, by decide⟩
  rw [predicate, predicateText]
  split_ifs <;> simp

theorem hasOperands_predicate (left : Value) (operator : String) (right : Value) :
    (predicate left operator right).hasOperands = true := by
  simp only [hasOperands, predicate, predicateOperands]
  split_ifs <;> rfl

/-- The placeholders of fragments follow one another. -/
theorem placeholders_expression {fs : List Fragment} (h : ∀ f ∈ fs, f.StandsApart) :
    Template.placeholders (expression fs).template = fs.flatMap placeholders := by
  have hseams : Template.Seams (fs.map text) := by
    cases fs with
    | nil => exact List.IsChain.nil
    | cons f fs =>
      refine Template.seams_of_isBreak f.text fun t ht => ?_
      obtain ⟨g, hg, rfl⟩ := List.mem_map.mp ht
      exact h g (List.mem_cons_of_mem f hg)
  rw [expression, Expression.withParameters, Template.placeholders_join hseams, List.flatMap_map]
  rfl

/-- Fragments with operands hold all operands. -/
theorem flatMap_filter_hasOperands (fs : List Fragment) :
    (fs.filter hasOperands).flatMap operands = fs.flatMap operands := by
  induction fs with
  | nil => rfl
  | cons f fs ih =>
    rw [List.flatMap_cons, ← ih]
    rcases f with ⟨text, _ | ⟨v, vs⟩⟩ <;> rfl

end Fragment

open Fragment (joining opening closing hasOperands)

/-! ## The fragments of items -/

namespace Item

mutual

/-- The fragments of an item without its connective. -/
def fragments : Item → List Fragment
  | .predicate _ left operator right => [.predicate left operator right]
  | .value _ v => [.value v]
  | .group _ items => opening :: (chainFragments items ++ [closing])

/-- **The fragments of the items of a frame.** -/
def chainFragments : List Item → List Fragment
  | [] => []
  | item :: items => item.fragments ++ restFragments items

/-- The fragments of items that follow another one. -/
def restFragments : List Item → List Fragment
  | [] => []
  | item :: items => joining item.logic :: (item.fragments ++ restFragments items)

end

/-- The connective that is due after the items of a frame. -/
def connecting (items : List Item) (logic : String) : List Fragment :=
  if items.isEmpty then [] else [joining logic]

theorem restFragments_append (items : List Item) (item : Item) :
    restFragments (items ++ [item]) =
      restFragments items ++ joining item.logic :: item.fragments := by
  induction items with
  | nil => simp only [List.nil_append, restFragments, List.append_nil]
  | cons i items ih =>
    rw [List.cons_append, restFragments, ih, restFragments, List.cons_append, List.append_assoc]

theorem chainFragments_append (items : List Item) (item : Item) :
    chainFragments (items ++ [item]) =
      chainFragments items ++ connecting items item.logic ++ item.fragments := by
  cases items with
  | nil => simp [chainFragments, restFragments, connecting]
  | cons i items =>
    rw [List.cons_append, chainFragments, restFragments_append, chainFragments]
    simp [connecting]

mutual

theorem expression_fragments : ∀ item : Item,
    Fragment.expression item.fragments = .withParameters item.text item.operands
  | .predicate _ left operator right => by
    rw [fragments, text, operands, Fragment.expression_singleton, Fragment.predicate]
  | .value _ v => by rw [fragments, text, operands, Fragment.expression_singleton, Fragment.value]
  | .group _ items => by
    have hopening : Fragment.expression [opening] = .withParameters "(" [] := rfl
    have hclosing : Fragment.expression [closing] = .withParameters ")" [] := rfl
    have h := Fragment.expression_append hopening
      (Fragment.expression_append (expression_chainFragments items) hclosing)
    rw [List.nil_append, List.append_nil, ← String.append_assoc] at h
    exact h

/-- **Items are written as their fragments.** -/
theorem expression_chainFragments : ∀ items : List Item,
    Fragment.expression (chainFragments items) =
      .withParameters (chainText items) (chainOperands items)
  | [] => rfl
  | item :: items =>
    Fragment.expression_append (expression_fragments item) (expression_restFragments items)

theorem expression_restFragments : ∀ items : List Item,
    Fragment.expression (restFragments items) =
      .withParameters (restText items) (chainOperands items)
  | [] => rfl
  | item :: items => by
    have hjoining : Fragment.expression [joining item.logic] =
        .withParameters (" " ++ Text.keyword item.logic ++ " ") [] :=
      Fragment.expression_singleton _
    have h := Fragment.expression_append hjoining (Fragment.expression_append
      (expression_fragments item) (expression_restFragments items))
    rw [List.nil_append, ← String.append_assoc] at h
    exact h

end

end Item

/-! ## The fragments of outlines -/

namespace Outline

/-- **The fragments of an outline**, without the parentheses of its open groups that are still
due. -/
def fragments : Outline → List Fragment
  | .chain items => Item.chainFragments items
  | .inGroup outer logic items =>
    outer.fragments ++ Item.connecting outer.items logic ++ opening :: Item.chainFragments items

variable (o : Outline)

theorem fragments_append (item : Item) :
    (o.append item).fragments =
      o.fragments ++ Item.connecting o.items item.logic ++ item.fragments := by
  cases o with
  | chain items => exact Item.chainFragments_append items item
  | inGroup outer logic items =>
    rw [append, fragments, Item.chainFragments_append, fragments, Outline.items]
    simp only [List.append_assoc, List.cons_append]

theorem fragments_closeGroup (logic : String) (items : List Item) :
    (closeGroup (.inGroup o logic items)).fragments =
      (inGroup o logic items).fragments ++ [closing] := by
  rw [closeGroup, fragments_append, Item.logic, Item.fragments, fragments]
  simp only [List.append_assoc, List.cons_append]

end Outline

/-! ## The fragments of steps -/

namespace Step

/-- The fragment with operands that a step adds. -/
def added? : Step → Option Fragment
  | .add _ left operator right => some (.predicate left operator right)
  | .addValue _ v => some (.value v)
  | .openGroup _ | .closeGroup | .closeEmpty => none

/-- The fragments that a step may write. -/
def fragments : Step → List Fragment
  | .add logic left operator right => [joining logic, .predicate left operator right]
  | .addValue logic v => [joining logic, .value v]
  | .openGroup logic => [joining logic, opening]
  | .closeGroup | .closeEmpty => [closing]

/-- The connective that a step may write. -/
def logic? : Step → Option String
  | .add logic _ _ _ | .addValue logic _ | .openGroup logic => some logic
  | .closeGroup | .closeEmpty => none

/-- A fragment of a step is its connective, a parenthesis, or what it adds. -/
theorem fragments_cases {s : Step} {f : Fragment} (h : f ∈ s.fragments) :
    (∃ logic, s.logic? = some logic ∧ f = joining logic) ∨ f = opening ∨ f = closing ∨
      (∃ logic left operator right, s = .add logic left operator right ∧
        f = .predicate left operator right) ∨
      ∃ logic v, s = .addValue logic v ∧ f = .value v := by
  cases s with
  | add logic left operator right =>
    obtain rfl | h := List.mem_cons.mp h
    · exact .inl ⟨logic, rfl, rfl⟩
    · rw [List.mem_singleton.mp h]
      exact .inr (.inr (.inr (.inl ⟨logic, left, operator, right, rfl, rfl⟩)))
  | addValue logic v =>
    obtain rfl | h := List.mem_cons.mp h
    · exact .inl ⟨logic, rfl, rfl⟩
    · rw [List.mem_singleton.mp h]
      exact .inr (.inr (.inr (.inr ⟨logic, v, rfl, rfl⟩)))
  | openGroup logic =>
    obtain rfl | h := List.mem_cons.mp h
    · exact .inl ⟨logic, rfl, rfl⟩
    · exact .inr (.inl (List.mem_singleton.mp h))
  | closeGroup | closeEmpty => exact .inr (.inr (.inl (List.mem_singleton.mp h)))

/-- Every fragment of a step opens with a blank, a parenthesis or a question mark. -/
theorem standsApart {s : Step} {f : Fragment} (h : f ∈ s.fragments) : f.StandsApart := by
  obtain ⟨logic, -, rfl⟩ | rfl | rfl | ⟨-, left, operator, right, -, rfl⟩ | ⟨-, v, -, rfl⟩ :=
    fragments_cases h
  · exact Fragment.standsApart_joining logic
  · exact Fragment.standsApart_opening
  · exact Fragment.standsApart_closing
  · exact Fragment.standsApart_predicate left operator right
  · exact Fragment.standsApart_value v

end Step

namespace Outline

variable (o : Outline)

theorem filter_connecting (items : List Item) (logic : String) :
    (Item.connecting items logic).filter hasOperands = [] := by
  rw [Item.connecting]
  split_ifs <;> rfl

theorem mem_connecting {items : List Item} {logic : String} {f : Fragment}
    (h : f ∈ Item.connecting items logic) : f = joining logic := by
  rw [Item.connecting] at h
  split_ifs at h
  · cases h
  · exact List.mem_singleton.mp h

theorem filter_fragments_closeGroup :
    o.closeGroup.fragments.filter hasOperands = o.fragments.filter hasOperands := by
  cases o with
  | chain items => rfl
  | inGroup outer logic items =>
    rw [fragments_closeGroup, List.filter_append]
    exact List.append_nil _

theorem mem_fragments_closeGroup {f : Fragment} (h : f ∈ o.closeGroup.fragments) :
    f ∈ o.fragments ∨ f = closing := by
  cases o with
  | chain items => exact .inl h
  | inGroup outer logic items =>
    rw [fragments_closeGroup, List.mem_append, List.mem_singleton] at h
    exact h

theorem closeEmpty_cases :
    (∃ outer logic, o = .inGroup outer logic [] ∧ o.closeEmpty = outer) ∨
      o.closeEmpty = o.closeGroup := by
  rcases o with items | ⟨outer, logic, _ | ⟨item, items⟩⟩
  · exact .inr rfl
  · exact .inl ⟨outer, logic, rfl, rfl⟩
  · exact .inr rfl

/-- **A step keeps the fragments with operands and adds its own.** -/
theorem filter_fragments_step (s : Step) :
    (o.step s).fragments.filter hasOperands =
      o.fragments.filter hasOperands ++ s.added?.toList := by
  cases s with
  | add logic left operator right =>
    have hadded : [Fragment.predicate left operator right].filter hasOperands =
        [.predicate left operator right] :=
      List.filter_cons_of_pos (Fragment.hasOperands_predicate left operator right)
    rw [step, fragments_append, List.filter_append, List.filter_append, filter_connecting,
      List.append_nil, Item.fragments, hadded]
    rfl
  | addValue logic v =>
    rw [step, fragments_append, List.filter_append, List.filter_append, filter_connecting,
      List.append_nil]
    rfl
  | openGroup logic =>
    rw [step, fragments, List.filter_append, List.filter_append, filter_connecting,
      List.append_nil]
    rfl
  | closeGroup =>
    rw [step, filter_fragments_closeGroup]
    exact (List.append_nil _).symm
  | closeEmpty =>
    rw [step, Step.added?, Option.toList_none, List.append_nil]
    -- the frame that is taken back has a connective and a parenthesis, both without operands
    obtain ⟨outer, logic, rfl, h⟩ | h := o.closeEmpty_cases
    · rw [h, fragments, List.filter_append, List.filter_append, filter_connecting, List.append_nil]
      exact (List.append_nil _).symm
    · rw [h, filter_fragments_closeGroup]

/-- A step writes no other fragments than its own. -/
theorem mem_fragments_step {s : Step} {f : Fragment} (h : f ∈ (o.step s).fragments) :
    f ∈ o.fragments ∨ f ∈ s.fragments := by
  cases s with
  | add logic left operator right | addValue logic v =>
    rw [step, fragments_append, List.mem_append, List.mem_append, Item.fragments,
      List.mem_singleton] at h
    obtain (h | h) | rfl := h
    · exact .inl h
    · rw [mem_connecting h]
      exact .inr List.mem_cons_self
    · exact .inr (List.mem_cons_of_mem _ List.mem_cons_self)
  | openGroup logic =>
    rw [step, fragments, List.mem_append, List.mem_append] at h
    obtain (h | h) | h := h
    · exact .inl h
    · rw [mem_connecting h]
      exact .inr List.mem_cons_self
    · exact .inr (List.mem_cons_of_mem _ h)
  | closeGroup => exact (o.mem_fragments_closeGroup h).imp_right List.mem_singleton.mpr
  | closeEmpty =>
    obtain ⟨outer, logic, rfl, hclose⟩ | hclose := o.closeEmpty_cases
    · rw [step, hclose] at h
      rw [fragments, List.mem_append, List.mem_append]
      exact .inl (.inl (.inl h))
    · rw [step, hclose] at h
      exact (o.mem_fragments_closeGroup h).imp_right List.mem_singleton.mpr

/-! ## Runs -/

theorem fragments_run (steps : List Step) :
    (run steps).fragments.filter hasOperands = steps.filterMap Step.added? ∧
      ∀ f ∈ (run steps).fragments, ∃ s ∈ steps, f ∈ s.fragments := by
  induction steps using List.reverseRecOn with
  | nil => exact ⟨rfl, fun f h => nomatch h⟩
  | append_singleton steps s ih =>
    obtain ⟨hfilter, hmem⟩ := ih
    have hrun : run (steps ++ [s]) = (run steps).step s := List.foldl_concat ..
    rw [hrun, filter_fragments_step, hfilter, List.filterMap_append]
    refine ⟨by cases h : s.added? <;> simp [h], fun f hf => ?_⟩
    obtain hf | hf := mem_fragments_step _ hf
    · obtain ⟨t, ht, hft⟩ := hmem f hf
      exact ⟨t, List.mem_append_left _ ht, hft⟩
    · exact ⟨s, List.mem_append_right _ (List.mem_singleton_self s), hf⟩

/-- Closing groups adds parentheses only. -/
theorem fragments_iterate_closeGroup (n : Nat) :
    (closeGroup^[n] o).fragments.filter hasOperands = o.fragments.filter hasOperands ∧
      ∀ f ∈ (closeGroup^[n] o).fragments, f ∈ o.fragments ∨ f = closing := by
  induction n generalizing o with
  | zero => exact ⟨rfl, fun f => .inl⟩
  | succ n ih =>
    obtain ⟨hfilter, hmem⟩ := ih o.closeGroup
    rw [Function.iterate_succ_apply]
    refine ⟨hfilter.trans o.filter_fragments_closeGroup, fun f hf => ?_⟩
    obtain hf | hf := hmem f hf
    · exact o.mem_fragments_closeGroup hf
    · exact .inr hf

theorem chainFragments_closeAll :
    Item.chainFragments o.closeAll = (closeGroup^[o.depth] o).fragments := by
  have hdepth : (closeGroup^[o.depth] o).depth = 0 := by
    rw [depth_iterate_closeGroup, Nat.sub_self]
  rw [closeAll]
  cases h : closeGroup^[o.depth] o with
  | chain items => rfl
  | inGroup outer logic items =>
    rw [h] at hdepth
    cases hdepth

end Outline

/-- What calls add: their fragments with operands, in order. -/
def added (calls : List Call) : List Fragment := calls.filterMap fun k => k.meaning.added?

/-- **A chain consists of the fragments of its calls**: those with operands are what the calls have
added, in this order. -/
theorem exists_fragments (calls : List Call) : ∃ fs : List Fragment,
    (calls.foldl call empty).toExpression = Fragment.expression fs ∧
      fs.filter hasOperands = added calls ∧
      ∀ f ∈ fs, f = closing ∨ ∃ k ∈ calls, f ∈ k.meaning.fragments := by
  obtain ⟨hadded, hwritten⟩ := Outline.fragments_run (calls.map Call.meaning)
  obtain ⟨hfilter, hmem⟩ := (Outline.run (calls.map Call.meaning)).fragments_iterate_closeGroup
    (Outline.run (calls.map Call.meaning)).depth
  rw [← Outline.chainFragments_closeAll] at hfilter hmem
  rw [List.filterMap_map] at hadded
  refine ⟨_, ?_, hfilter.trans hadded, fun f hf => ?_⟩
  · rw [foldl_call, Outline.run_written, Outline.toExpression_written,
      Item.expression_chainFragments]
  · obtain hf | hf := hmem f hf
    · obtain ⟨s, hs, hfs⟩ := hwritten f hf
      obtain ⟨k, hk, rfl⟩ := List.mem_map.mp hs
      exact .inr ⟨k, hk, hfs⟩
    · exact .inl hf

/-- The placeholders of the chain are those of such fragments. -/
theorem placeholders_of_fragments {calls : List Call} {fs : List Fragment}
    (h : ∀ f ∈ fs, f = closing ∨ ∃ k ∈ calls, f ∈ k.meaning.fragments) :
    Template.placeholders (Fragment.expression fs).template =
      fs.flatMap Fragment.placeholders := by
  refine Fragment.placeholders_expression fun f hf => ?_
  obtain rfl | ⟨k, -, hk⟩ := h f hf
  · exact Fragment.standsApart_closing
  · exact Step.standsApart hk

end Conditions

end PortableSql
