import Mathlib.Logic.Function.Iterate
import Mathlib.Tactic.SplitIfs
import PortableSql.Conditions

/-!
# Chains of conditions as trees

A chain under construction writes an outline: a stack of frames, each with its items, where an item
is a predicate, a value or a closed group. The marks of the open groups, and whether an item is due,
can be read off the outline, so a chain is the written form of one outline after every call.

* `Conditions.Item`: items with their connectives; `Item.text`, `Item.chainText`,
  `Item.operands` are what they write.
* **`Conditions.Outline`**, `Outline.step`, `Outline.closeAll`: the frames, and what a step does
  to them.
* `Outline.written`: the chain that writes an outline.
* `Outline.step_written`, `Outline.run_written`: a step on the chain is a step on its outline.
* **`Conditions.calls_write_outline`**: the expression, the depth and the emptiness of a chain
  after any calls.
-/

namespace PortableSql

/-! ## Marks and parentheses -/

theorem Text.takeBytesChars_append (cs ds : List Char) :
    takeBytesChars (String.ofList cs).utf8ByteSize (cs ++ ds) = cs := by
  induction cs with
  | nil =>
    cases ds with
    | nil => rfl
    | cons d ds => exact if_neg (Nat.not_le.mpr d.utf8Size_pos)
  | cons c cs ih =>
    have hsize : (String.ofList (c :: cs)).utf8ByteSize =
        c.utf8Size + (String.ofList cs).utf8ByteSize := by
      rw [String.ofList_cons, String.utf8ByteSize_append, String.utf8ByteSize_singleton]
    rw [hsize, List.cons_append, takeBytesChars, if_pos (Nat.le_add_right _ _),
      Nat.add_sub_cancel_left, ih]

/-- What was written after a mark is taken back. -/
theorem Text.takeBytes_append (s t : String) : takeBytes s.utf8ByteSize (s ++ t) = s := by
  have h := takeBytesChars_append s.toList t.toList
  rw [String.ofList_toList] at h
  rw [takeBytes, String.toList_append, h, String.ofList_toList]

namespace Conditions

/-- Closing a group does not change the expression, which has the parenthesis already. -/
theorem toExpression_closeGroup (c : Conditions) : c.closeGroup.toExpression = c.toExpression := by
  rcases hg : c.groups with _ | ⟨group, groups⟩
  · simp only [closeGroup, hg]
  · simp only [toExpression, closeGroup, depth, push, hg, List.length_cons, List.replicate_succ,
      String.ofList_cons, String.append_assoc, List.append_nil]
    rfl

/-! ## Items -/

/-- **An item of a frame**, with the connective before it. -/
inductive Item where
  | predicate (logic : String) (left : Value) (operator : String) (right : Value)
  | value (logic : String) (item : Value)
  | group (logic : String) (items : List Item)

namespace Item

/-- The connective before the item. -/
def logic : Item → String
  | .predicate logic _ _ _ => logic
  | .value logic _ => logic
  | .group logic _ => logic

mutual

/-- The text of an item without its connective. -/
def text : Item → String
  | .predicate _ _ operator _ => predicateText (Text.keyword operator)
  | .value _ _ => "?"
  | .group _ items => "(" ++ chainText items ++ ")"

/-- **The text of the items of a frame**; the first one goes without its connective. -/
def chainText : List Item → String
  | [] => ""
  | item :: items => item.text ++ restText items

/-- The text of items that follow another one. -/
def restText : List Item → String
  | [] => ""
  | item :: items => " " ++ Text.keyword item.logic ++ " " ++ item.text ++ restText items

end

mutual

/-- The values of the placeholders of an item. -/
def operands : Item → List Value
  | .predicate _ left operator right => predicateOperands (Text.keyword operator) left right
  | .value _ item => [item]
  | .group _ items => chainOperands items

/-- The values of the placeholders of items, in order. -/
def chainOperands : List Item → List Value
  | [] => []
  | item :: items => item.operands ++ chainOperands items

end

/-- The connective that is due after the items of a frame. -/
def connective (items : List Item) (logic : String) : String :=
  if items.isEmpty then "" else " " ++ Text.keyword logic ++ " "

theorem restText_append (items : List Item) (item : Item) :
    restText (items ++ [item]) =
      restText items ++ (" " ++ Text.keyword item.logic ++ " " ++ item.text) := by
  induction items with
  | nil => simp only [List.nil_append, restText, String.append_empty, String.empty_append]
  | cons i items ih =>
    rw [List.cons_append, restText, ih, restText]
    simp only [String.append_assoc]

theorem chainText_append (items : List Item) (item : Item) :
    chainText (items ++ [item]) = chainText items ++ connective items item.logic ++ item.text := by
  cases items with
  | nil => simp [chainText, restText, connective]
  | cons i items =>
    rw [List.cons_append, chainText, restText_append, chainText]
    simp only [connective, List.isEmpty_cons, Bool.false_eq_true, if_false, String.append_assoc]

theorem chainOperands_append (items : List Item) (item : Item) :
    chainOperands (items ++ [item]) = chainOperands items ++ item.operands := by
  induction items with
  | nil => simp only [List.nil_append, chainOperands, List.append_nil]
  | cons i items ih => rw [List.cons_append, chainOperands, ih, chainOperands, List.append_assoc]

theorem text_ne_empty (item : Item) : item.text ≠ "" := by
  cases item with
  | predicate logic left operator right =>
    rw [text, predicateText]
    split_ifs <;> simp
  | value logic item => simp [text]
  | group logic items => simp [text]

theorem chainText_eq_empty {items : List Item} : chainText items = "" ↔ items = [] := by
  cases items with
  | nil => simp [chainText]
  | cons item items => simp [chainText, text_ne_empty]

end Item

/-! ## Outlines -/

/-- **A stack of frames**: the items outside all groups, and the open groups on top of it, each
with its connective and its items. -/
inductive Outline where
  | chain (items : List Item)
  | inGroup (outer : Outline) (logic : String) (items : List Item)

namespace Outline

/-- The items of the innermost frame. -/
def items : Outline → List Item
  | .chain items => items
  | .inGroup _ _ items => items

/-- The outline with one more item in its innermost frame. -/
def append (item : Item) : Outline → Outline
  | .chain items => .chain (items ++ [item])
  | .inGroup outer logic items => .inGroup outer logic (items ++ [item])

/-- The number of open groups. -/
def depth : Outline → Nat
  | .chain _ => 0
  | .inGroup outer _ _ => outer.depth + 1

/-- The innermost frame becomes a group of the next one; without an open group nothing happens. -/
def closeGroup : Outline → Outline
  | .chain items => .chain items
  | .inGroup outer logic items => outer.append (.group logic items)

/-- An empty frame is taken back, and any other one closed. -/
def closeEmpty : Outline → Outline
  | .inGroup outer _ [] => outer
  | o => o.closeGroup

/-- **The outline after one more step.** -/
def step (o : Outline) : Step → Outline
  | .add logic left operator right => o.append (.predicate logic left operator right)
  | .addValue logic item => o.append (.value logic item)
  | .openGroup logic => .inGroup o logic []
  | .closeGroup => o.closeGroup
  | .closeEmpty => o.closeEmpty

/-- The outline of a new chain after steps in order. -/
def run (steps : List Step) : Outline := steps.foldl step (.chain [])

/-- **The items when all open groups are closed in order.** -/
def closeAll (o : Outline) : List Item := (closeGroup^[o.depth] o).items

/-! ## What an outline writes -/

/-- The text of an outline, without the parentheses of its open groups that are still due. -/
def text : Outline → String
  | .chain items => Item.chainText items
  | .inGroup outer logic items =>
    outer.text ++ Item.connective outer.items logic ++ "(" ++ Item.chainText items

/-- The values of its placeholders. -/
def operands : Outline → List Value
  | .chain items => Item.chainOperands items
  | .inGroup outer _ items => outer.operands ++ Item.chainOperands items

/-- The marks of its open groups, innermost first. -/
def groups : Outline → List Group
  | .chain _ => []
  | .inGroup outer _ _ => ⟨outer.text.utf8ByteSize, outer.items.isEmpty⟩ :: outer.groups

/-- **The chain that writes an outline.** -/
def written (o : Outline) : Conditions := ⟨o.text, o.operands, o.items.isEmpty, o.groups⟩

variable (o : Outline)

@[simp]
theorem items_append (item : Item) : (o.append item).items = o.items ++ [item] := by
  cases o <;> rfl

@[simp]
theorem groups_append (item : Item) : (o.append item).groups = o.groups := by
  cases o <;> rfl

@[simp]
theorem depth_append (item : Item) : (o.append item).depth = o.depth := by
  cases o <;> rfl

theorem text_append (item : Item) :
    (o.append item).text = o.text ++ Item.connective o.items item.logic ++ item.text := by
  cases o with
  | chain items => exact Item.chainText_append items item
  | inGroup outer logic items =>
    rw [append, text, Item.chainText_append, text, Outline.items]
    simp only [String.append_assoc]

theorem operands_append (item : Item) :
    (o.append item).operands = o.operands ++ item.operands := by
  cases o with
  | chain items => exact Item.chainOperands_append items item
  | inGroup outer logic items =>
    rw [append, operands, Item.chainOperands_append, operands, List.append_assoc]

theorem written_append (item : Item) :
    (o.append item).written =
      ⟨o.text ++ Item.connective o.items item.logic ++ item.text, o.operands ++ item.operands,
        false, o.groups⟩ := by
  have hne : (o.items ++ [item]).isEmpty = false := by simp
  rw [written, text_append, operands_append, items_append, groups_append, hne]

/-! ## Steps -/

/-- Before an item the connective is written that is due after the items of the frame. -/
theorem connect_written (logic : String) :
    o.written.connect logic =
      ⟨o.text ++ Item.connective o.items logic, o.operands, false, o.groups⟩ := by
  cases h : o.items.isEmpty <;> simp [connect, push, written, Item.connective, h]

theorem closeGroup_written : o.written.closeGroup = o.closeGroup.written := by
  cases o with
  | chain items => rfl
  | inGroup outer logic items =>
    rw [Outline.closeGroup, written_append]
    simp [Conditions.closeGroup, written, groups, push, text, operands, Item.text, Item.operands,
      Item.logic, String.append_assoc]

theorem closeEmpty_written : o.written.closeEmpty = o.closeEmpty.written := by
  cases o with
  | chain items =>
    rw [Conditions.closeEmpty]
    split_ifs <;> rfl
  | inGroup outer logic items =>
    cases items with
    | nil =>
      simp [Conditions.closeEmpty, Outline.closeEmpty, written, groups, items, text, operands,
        Item.chainText, Item.chainOperands, String.append_assoc, Text.takeBytes_append]
    | cons item items => exact closeGroup_written (.inGroup outer logic (item :: items))

/-- **A step on the chain of an outline is a step on the outline.** -/
theorem step_written (s : Step) : o.written.step s = (o.step s).written := by
  cases s with
  | add logic left operator right =>
    rw [Conditions.step, add, connect_written, Outline.step, written_append]
    rfl
  | addValue logic item =>
    rw [Conditions.step, addValue, connect_written, Outline.step, written_append]
    rfl
  | openGroup logic =>
    rw [Conditions.step, openGroup, connect_written]
    simp [Outline.step, written, groups, push, items, text, operands, Item.chainText,
      Item.chainOperands]
  | closeGroup => exact o.closeGroup_written
  | closeEmpty => exact o.closeEmpty_written

theorem run_written (steps : List Step) :
    Conditions.run empty steps = (Outline.run steps).written := by
  have h : ∀ o : Outline, Conditions.run o.written steps = (steps.foldl step o).written := by
    induction steps with
    | nil => exact fun _ => rfl
    | cons s steps ih =>
      intro o
      rw [Conditions.run, List.foldl_cons, step_written]
      exact ih (o.step s)
  exact h (.chain [])

/-! ## Closing what is open -/

theorem depth_written : o.written.depth = o.depth := by
  change o.groups.length = o.depth
  induction o with
  | chain items => rfl
  | inGroup outer logic items ih => exact congrArg (· + 1) ih

theorem depth_closeGroup : o.closeGroup.depth = o.depth - 1 := by
  cases o with
  | chain items => rfl
  | inGroup outer logic items => exact outer.depth_append _

theorem depth_iterate_closeGroup (n : Nat) : (closeGroup^[n] o).depth = o.depth - n := by
  induction n generalizing o with
  | zero => rfl
  | succ n ih =>
    rw [Function.iterate_succ_apply, ih, depth_closeGroup]
    omega

theorem toExpression_iterate_closeGroup (n : Nat) :
    (closeGroup^[n] o).written.toExpression = o.written.toExpression := by
  induction n generalizing o with
  | zero => rfl
  | succ n ih =>
    rw [Function.iterate_succ_apply, ih, ← closeGroup_written, toExpression_closeGroup]

theorem toExpression_of_depth (h : o.depth = 0) :
    o.written.toExpression =
      .withParameters (Item.chainText o.items) (Item.chainOperands o.items) := by
  cases o with
  | chain items => exact congrArg (Expression.withParameters · _) String.append_empty
  | inGroup outer logic items => exact absurd h (Nat.succ_ne_zero _)

/-- **The expression of a chain is that of its outline with all groups closed.** -/
theorem toExpression_written :
    o.written.toExpression =
      .withParameters (Item.chainText o.closeAll) (Item.chainOperands o.closeAll) := by
  -- as many groups are closed as are open, which leaves the expression as it is
  rw [← o.toExpression_iterate_closeGroup o.depth, toExpression_of_depth, closeAll]
  rw [depth_iterate_closeGroup, Nat.sub_self]

theorem text_eq_empty : o.text = "" ↔ o = .chain [] := by
  cases o with
  | chain items => simp [text, Item.chainText_eq_empty]
  | inGroup outer logic items => simp [text]

/-- A chain is empty if its outline has neither an item nor an open group. -/
theorem isEmpty_written : o.written.isEmpty ↔ o = .chain [] := by
  rw [Conditions.isEmpty, Bool.and_eq_true, decide_eq_true_iff, ← text_eq_empty]
  refine ⟨And.right, fun h => ⟨?_, h⟩⟩
  obtain rfl := o.text_eq_empty.mp h
  rfl

end Outline

/-! ## Calls -/

/-- A call on a chain: a step, or a shorthand for one. -/
inductive Call where
  | step (s : Step)
  | and (left : Value) (operator : String) (right : Value)
  | or (left : Value) (operator : String) (right : Value)
  | andValue (item : Value)
  | orValue (item : Value)
  | andIn (left : Value) (values : List Value)
  | andBetween (left low high : Value)

/-- The chain after a call. -/
def call (c : Conditions) : Call → Conditions
  | .step s => c.step s
  | .and left operator right => c.and left operator right
  | .or left operator right => c.or left operator right
  | .andValue item => c.andValue item
  | .orValue item => c.orValue item
  | .andIn left values => c.andIn left values
  | .andBetween left low high => c.andBetween left low high

/-- The step that a call stands for. -/
def Call.meaning : Call → Step
  | .step s => s
  | .and left operator right => .add "and" left operator right
  | .or left operator right => .add "or" left operator right
  | .andValue item => .addValue "and" item
  | .orValue item => .addValue "or" item
  | .andIn left values => .add "and" left "IN" (.sequence values)
  | .andBetween left low high => .add "and" left "BETWEEN" (.sequence [low, high])

theorem foldl_call (c : Conditions) (calls : List Call) :
    calls.foldl call c = c.run (calls.map Call.meaning) := by
  rw [run, List.foldl_map]
  congr 1
  funext c k
  cases k <;> rfl

/-- **A chain writes the outline of its calls**: it becomes the expression of the outline with all
groups closed, its depth is the number of open groups, and it is empty if the outline has neither
an item nor an open group. -/
theorem calls_write_outline (calls : List Call) :
    let c := calls.foldl call empty
    let o := Outline.run (calls.map Call.meaning)
    c.toExpression =
        .withParameters (Item.chainText o.closeAll) (Item.chainOperands o.closeAll) ∧
      c.depth = o.depth ∧ (c.isEmpty ↔ o = .chain []) := by
  rw [foldl_call, Outline.run_written]
  exact ⟨Outline.toExpression_written _, Outline.depth_written _, Outline.isEmpty_written _⟩

end Conditions

end PortableSql
