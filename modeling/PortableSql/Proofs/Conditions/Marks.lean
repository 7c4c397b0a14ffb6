import Mathlib.Data.List.Forall2
import PortableSql.Proofs.Conditions.Outline

/-!
# Marks of open groups

A group remembers where the template ended, and whether an item was due, when it was opened. With
that alone a group without items is taken back exactly. The marks are byte offsets into a text that
grows and shrinks; the outline of a chain shows that they stay what they were.

* `Text.truncate?`: cutting a text at an offset that has to lie between two characters.
* `Conditions.closeEmpty?`, `Conditions.run?`: the steps with this requirement.
* **`Conditions.openings`**: the steps before the opening of each group that is open, found by
  matching closings with openings.
* **`Conditions.Group.Remembers`**: a mark and a flag are those of the chain at the opening.
* `Outline.outers`, `Outline.outers_run`: the outlines around the open groups are the ones that had
  been written when the groups were opened.
* **`Conditions.Nested`**, `Conditions.run_of_nested`: groups that are all taken back leave any
  chain as it was.
* `Conditions.remember_openings`, `Conditions.closeEmpty_of_openings`: the open groups after steps.
* **`Conditions.calls_undo_exactly`**: all of it after any calls.
-/

namespace PortableSql

/-! ## Cutting at an offset -/

/-- **A text cut at an offset.** Beyond its end nothing is cut; anywhere else the offset has to lie
on a boundary between characters. -/
def Text.truncate? (n : Nat) (s : String) : Option String :=
  if s.utf8ByteSize < n then some s
  else if (String.Pos.Raw.mk n).IsValid s then some (takeBytes n s) else none

/-- The end of a text stays a boundary when more is written. -/
theorem Text.isValid_append (s t : String) :
    (String.Pos.Raw.mk s.utf8ByteSize).IsValid (s ++ t) :=
  String.Pos.Raw.isValid_rawEndPos.append_right t

/-- What was written after a mark can be taken back. -/
theorem Text.truncate?_append (s t : String) : truncate? s.utf8ByteSize (s ++ t) = some s := by
  have hle : ¬ (s ++ t).utf8ByteSize < s.utf8ByteSize := by
    rw [String.utf8ByteSize_append]
    omega
  rw [truncate?, if_neg hle, if_pos (isValid_append s t), takeBytes_append]

namespace Conditions

/-- `closeEmpty`, where the template has to be cut on a boundary. -/
def closeEmpty? (c : Conditions) : Option Conditions :=
  if c.fresh then
    match c.groups with
    | [] => some c
    | group :: groups => (Text.truncate? group.mark c.template).map fun template =>
      { c with template := template, fresh := group.wasFresh, groups := groups }
  else some c.closeGroup

/-- A step, where the template has to be cut on a boundary. -/
def step? (c : Conditions) : Step → Option Conditions
  | .closeEmpty => c.closeEmpty?
  | s => some (c.step s)

/-- Steps in order, as long as the template is cut on a boundary. -/
def run? (c : Conditions) (steps : List Step) : Option Conditions := steps.foldlM step? c

/-! ## Openings -/

/-- What was noted at the openings of the groups that are open after a step, innermost first: an
opening notes `now`, and a closing forgets what the last opening noted. -/
def Step.noted {α : Type} (now : α) (opened : List α) : Step → List α
  | .openGroup _ => now :: opened
  | .closeGroup | .closeEmpty => opened.tail
  | .add _ _ _ _ | .addValue _ _ => opened

theorem Step.map_noted {α β : Type} (f : α → β) (now : α) (opened : List α) (s : Step) :
    (s.noted now opened).map f = s.noted (f now) (opened.map f) := by
  cases s <;> simp [noted]

/-- The openings after `steps`, when `past` came before them and has left `opened`. -/
def openingsFrom (past : List Step) (opened : List (List Step)) : List Step → List (List Step)
  | [] => opened
  | s :: steps => openingsFrom (past ++ [s]) (s.noted past opened) steps

/-- **The steps before each opening** of a group that is still open, innermost first. -/
def openings (steps : List Step) : List (List Step) := openingsFrom [] [] steps

/-- The steps go on with an opening after `before`. -/
def OpensAfter (steps before : List Step) : Prop :=
  ∃ logic after, steps = before ++ .openGroup logic :: after

theorem OpensAfter.append {steps before : List Step} (h : OpensAfter steps before)
    (more : List Step) : OpensAfter (steps ++ more) before := by
  obtain ⟨logic, after, rfl⟩ := h
  exact ⟨logic, after ++ more, by simp⟩

theorem opensAfter_of_mem_openingsFrom {steps past before : List Step} {opened : List (List Step)}
    (hopened : ∀ b ∈ opened, OpensAfter past b) (h : before ∈ openingsFrom past opened steps) :
    OpensAfter (past ++ steps) before := by
  induction steps generalizing past opened with
  | nil => exact (hopened before h).append []
  | cons s steps ih =>
    rw [List.append_cons]
    refine ih (fun b hb => ?_) h
    cases s with
    | openGroup logic =>
      obtain rfl | hb := List.mem_cons.mp hb
      · exact ⟨logic, [], rfl⟩
      · exact (hopened b hb).append _
    | closeGroup => exact (hopened b (List.mem_of_mem_tail hb)).append _
    | closeEmpty => exact (hopened b (List.mem_of_mem_tail hb)).append _
    | add logic left operator right => exact (hopened b hb).append _
    | addValue logic item => exact (hopened b hb).append _

theorem opensAfter_of_mem_openings {steps before : List Step} (h : before ∈ openings steps) :
    OpensAfter steps before := by
  have hnone : ∀ b ∈ ([] : List (List Step)), OpensAfter [] b := fun _ hb =>
    absurd hb List.not_mem_nil
  exact opensAfter_of_mem_openingsFrom hnone h

/-- **What a group remembers of the chain in which it was opened**, as it can be seen in a later
chain: the end of the template, on a boundary of the later one, which still begins with that
template, and whether an item was due. -/
structure Group.Remembers (group : Group) (opened now : Conditions) : Prop where
  mark_eq : group.mark = opened.template.utf8ByteSize
  mark_le : group.mark ≤ now.template.utf8ByteSize
  boundary : (String.Pos.Raw.mk group.mark).IsValid now.template
  takeBytes_mark : Text.takeBytes group.mark now.template = opened.template
  wasFresh_eq : group.wasFresh = opened.fresh

/-! ## Open groups of an outline -/

namespace Outline

/-- **The outlines around the open groups**, innermost first. -/
def outers : Outline → List Outline
  | .chain _ => []
  | .inGroup outer _ _ => outer :: outer.outers

/-- What a group remembers that is opened in an outline. -/
def remembered (outer : Outline) : Group := ⟨outer.text.utf8ByteSize, outer.items.isEmpty⟩

variable (o : Outline)

theorem groups_eq_map_outers : o.groups = o.outers.map remembered := by
  induction o with
  | chain items => rfl
  | inGroup outer logic items ih => rw [groups, outers, List.map_cons, ih, remembered]

theorem outers_append (item : Item) : (o.append item).outers = o.outers := by
  cases o <;> rfl

theorem outers_closeGroup : o.closeGroup.outers = o.outers.tail := by
  cases o with
  | chain items => rfl
  | inGroup outer logic items => exact outers_append outer _

theorem outers_closeEmpty : o.closeEmpty.outers = o.outers.tail := by
  cases o with
  | chain items => rfl
  | inGroup outer logic items =>
    cases items with
    | nil => rfl
    | cons item items => exact outers_closeGroup (.inGroup outer logic (item :: items))

/-- A step opens a group around what is written, closes the innermost one, or leaves them all. -/
theorem outers_step (s : Step) : (o.step s).outers = s.noted o o.outers := by
  cases s with
  | add logic left operator right => exact o.outers_append _
  | addValue logic item => exact o.outers_append _
  | openGroup logic => rfl
  | closeGroup => exact o.outers_closeGroup
  | closeEmpty => exact o.outers_closeEmpty

/-- **Around the open groups stands what had been written when they were opened.** -/
theorem outers_run (steps : List Step) : (run steps).outers = (openings steps).map run := by
  have h : ∀ (past : List Step) (opened : List (List Step)),
      (run past).outers = opened.map run →
        (run (past ++ steps)).outers = (openingsFrom past opened steps).map run := by
    induction steps with
    | nil =>
      intro past opened hopened
      rw [List.append_nil]
      exact hopened
    | cons s steps ih =>
      intro past opened hopened
      have hstep : (run (past ++ [s])).outers = (s.noted past opened).map run := by
        rw [run, List.foldl_append, Step.map_noted, ← hopened]
        exact outers_step _ s
      rw [List.append_cons]
      exact ih _ _ hstep
  exact h [] [] rfl

variable {o}

/-- What is written goes on, after the text around an open group, at least with a parenthesis. -/
theorem exists_text_of_mem_outers {outer : Outline} (h : outer ∈ o.outers) :
    ∃ t, t ≠ "" ∧ o.text = outer.text ++ t := by
  induction o with
  | chain items => cases h
  | inGroup o logic items ih =>
    have hne : Item.connective o.items logic ++ "(" ++ Item.chainText items ≠ "" := by simp
    obtain rfl | h := List.mem_cons.mp h
    · exact ⟨_, hne, by simp only [text, String.append_assoc]⟩
    · obtain ⟨t, ht, ho⟩ := ih h
      refine ⟨t ++ (Item.connective o.items logic ++ "(" ++ Item.chainText items), by simp, ?_⟩
      simp only [text, ho, String.append_assoc]

theorem mark_lt_of_mem_outers {outer : Outline} (h : outer ∈ o.outers) :
    outer.remembered.mark < o.text.utf8ByteSize := by
  obtain ⟨t, ht, ho⟩ := exists_text_of_mem_outers h
  have hpos : t.utf8ByteSize ≠ 0 := fun h0 => ht (String.utf8ByteSize_eq_zero_iff.mp h0)
  have hmark : outer.remembered.mark = outer.text.utf8ByteSize := rfl
  rw [ho, String.utf8ByteSize_append, hmark]
  omega

variable (o) in
/-- **The marks decrease from the innermost group outwards.** -/
theorem pairwise_mark : o.groups.Pairwise fun inner outer => outer.mark < inner.mark := by
  rw [groups_eq_map_outers]
  induction o with
  | chain items => exact List.Pairwise.nil
  | inGroup o logic items ih =>
    refine List.Pairwise.cons (fun group hgroup => ?_) ih
    obtain ⟨outer, houter, rfl⟩ := List.mem_map.mp hgroup
    exact mark_lt_of_mem_outers houter

/-- **An open group remembers the chain around it.** -/
theorem remembers_of_mem_outers {outer : Outline} (h : outer ∈ o.outers) :
    outer.remembered.Remembers outer.written o.written := by
  obtain ⟨t, -, ho⟩ := exists_text_of_mem_outers h
  have htext : o.written.template = outer.text ++ t := ho
  exact {
    mark_eq := rfl
    mark_le := Nat.le_of_lt (mark_lt_of_mem_outers h)
    boundary := by
      rw [htext]
      exact Text.isValid_append outer.text t
    takeBytes_mark := by
      rw [htext]
      exact Text.takeBytes_append outer.text t
    wasFresh_eq := rfl }

/-- **A group without items is taken back to the chain around it**, to which no operand has been
added. -/
theorem closeEmpty_of_fresh {outer : Outline} (hfresh : o.written.fresh = true)
    (h : o.outers.head? = some outer) :
    o.written.operands = outer.written.operands ∧ o.written.closeEmpty = outer.written := by
  cases o with
  | chain items => cases h
  | inGroup o logic items =>
    obtain rfl : items = [] := List.isEmpty_iff.mp hfresh
    obtain rfl : o = outer := Option.some.inj h
    refine ⟨?_, closeEmpty_written _⟩
    simp [written, operands, Item.chainOperands]

variable (o) in
/-- **The template of an outline is cut on a boundary only.** -/
theorem step?_written (s : Step) : o.written.step? s = some (o.step s).written := by
  rw [← step_written]
  cases s with
  | closeEmpty =>
    cases o with
    | chain items => cases items <;> rfl
    | inGroup outer logic items =>
      cases items with
      | nil =>
        have htext : (inGroup outer logic []).text =
            outer.text ++ (Item.connective outer.items logic ++ "(") := by
          simp [text, Item.chainText, String.append_assoc]
        simp [step?, Conditions.step, closeEmpty?, Conditions.closeEmpty, written, groups, items,
          htext, Text.truncate?_append, Text.takeBytes_append]
      | cons item items => rfl
  | _ => rfl

end Outline

theorem run?_eq_some (steps : List Step) : run? empty steps = some (empty.run steps) := by
  have h : ∀ o : Outline, run? o.written steps = some (steps.foldl Outline.step o).written := by
    induction steps with
    | nil => exact fun _ => rfl
    | cons s steps ih =>
      intro o
      rw [run?, List.foldlM_cons, Outline.step?_written]
      exact ih (o.step s)
  rw [Outline.run_written]
  exact h (.chain [])

/-! ## Groups that are all taken back -/

/-- **Openings, each with its own taking back.** -/
inductive Nested : List Step → Prop where
  | nil : Nested []
  | group (logic : String) {inner rest : List Step} (hinner : Nested inner) (hrest : Nested rest) :
    Nested (.openGroup logic :: (inner ++ .closeEmpty :: rest))

theorem Nested.append {word more : List Step} (h : Nested word) (hmore : Nested more) :
    Nested (word ++ more) := by
  induction h with
  | nil => exact hmore
  | group logic hinner _ _ ihrest =>
    rw [List.cons_append, List.append_assoc]
    exact .group logic hinner ihrest

/-- **A group that has just been opened is taken back exactly**, in any chain. -/
theorem closeEmpty_openGroup (c : Conditions) (logic : String) :
    (c.openGroup logic).closeEmpty = c := by
  obtain ⟨template, operands, fresh, groups⟩ := c
  cases fresh <;>
    simp [openGroup, connect, push, closeEmpty, String.append_assoc, Text.takeBytes_append]

/-- Groups that are all taken back leave any chain as it was. -/
theorem run_of_nested {word : List Step} (h : Nested word) : ∀ c : Conditions, c.run word = c := by
  induction h with
  | nil => exact fun _ => rfl
  | @group logic inner rest hinner hrest ihinner ihrest =>
    intro c
    calc c.run (.openGroup logic :: (inner ++ .closeEmpty :: rest))
        = (((c.openGroup logic).run inner).closeEmpty).run rest := by
          simp only [run, List.foldl_cons, List.foldl_append, step]
      _ = ((c.openGroup logic).closeEmpty).run rest := by rw [ihinner]
      _ = c := by rw [closeEmpty_openGroup, ihrest]

/-! ## After any calls -/

/-- **The open groups remember the chains in which they were opened.** -/
theorem remember_openings (steps : List Step) :
    List.Forall₂ (fun group before => group.Remembers (empty.run before) (empty.run steps))
      (empty.run steps).groups (openings steps) := by
  have hgroups : (empty.run steps).groups =
      (openings steps).map fun before => (Outline.run before).remembered := by
    rw [Outline.run_written]
    change (Outline.run steps).groups = _
    rw [Outline.groups_eq_map_outers, Outline.outers_run, List.map_map]
    rfl
  rw [hgroups, List.forall₂_map_left_iff, List.forall₂_same]
  intro before hbefore
  rw [Outline.run_written, Outline.run_written]
  refine Outline.remembers_of_mem_outers ?_
  rw [Outline.outers_run]
  exact List.mem_map_of_mem hbefore

/-- **With nothing in the innermost group, `closeEmpty` returns to the chain in which it was
opened.** -/
theorem closeEmpty_of_openings {steps before : List Step} (hfresh : (empty.run steps).fresh = true)
    (h : before ∈ (openings steps).head?) :
    (empty.run steps).operands = (empty.run before).operands ∧
      (empty.run steps).closeEmpty = empty.run before := by
  have houter : (Outline.run steps).outers.head? = some (Outline.run before) := by
    rw [Outline.outers_run, List.head?_map, Option.mem_def.mp h]
    rfl
  rw [Outline.run_written] at hfresh ⊢
  rw [Outline.run_written]
  exact Outline.closeEmpty_of_fresh hfresh houter

/-- **Open groups can always be taken back exactly.** After any calls on a new chain the marks of
its open groups increase strictly from the outermost to the innermost one, and each group remembers
the chain in which it was opened, with its mark on a boundary of the template. If nothing is in the
innermost group, then no operand has been added since it was opened, and `closeEmpty` returns to the
chain before. So the template has never been cut anywhere but on a boundary. Groups that are opened
and all taken back leave any chain as it was, with its template, operands, flag and groups. -/
theorem calls_undo_exactly :
    (∀ calls : List Call,
      let steps := calls.map Call.meaning
      let c := calls.foldl call empty
      c.groups.Pairwise (fun inner outer => outer.mark < inner.mark) ∧
        List.Forall₂ (fun group before => group.Remembers (empty.run before) c) c.groups
          (openings steps) ∧
        (∀ before ∈ openings steps, OpensAfter steps before) ∧
        (c.fresh = true → ∀ before ∈ (openings steps).head?,
          c.operands = (empty.run before).operands ∧ c.closeEmpty = empty.run before) ∧
        empty.run? steps = some c) ∧
    ∀ word : List Step, Nested word → ∀ c : Conditions, c.run word = c := by
  refine ⟨fun calls => ?_, fun word h c => run_of_nested h c⟩
  intro steps c
  have hc : c = empty.run steps := foldl_call empty calls
  rw [hc]
  refine ⟨?_, remember_openings steps, fun _ => opensAfter_of_mem_openings,
    fun hfresh _ => closeEmpty_of_openings hfresh, run?_eq_some steps⟩
  rw [Outline.run_written]
  exact Outline.pairwise_mark _

/-- Two open groups after connectives with characters of several bytes, one of which grows in upper
case: the inner group is taken back, and a word of three openings changes nothing. -/
theorem calls_undo_exactly_nested :
    let column (name : String) : Value := .column (.dotted name)
    let before : List Call :=
      [.andValue (column "a"), .step (.openGroup "é"), .orValue (column "b")]
    let calls := before ++ [.step (.openGroup "ŉ")]
    let word : List Step :=
      [.openGroup "or", .openGroup "ß", .closeEmpty, .openGroup "and", .closeEmpty, .closeEmpty]
    let c := calls.foldl call empty
    c.template = "? É (? ʼN (" ∧ c.groups = [⟨7, false⟩, ⟨1, false⟩] ∧ c.fresh = true ∧
      c.closeEmpty = empty.run (before.map Call.meaning) ∧ c.closeEmpty.template = "? É (?" ∧
      empty.run? (calls.map Call.meaning) = some c ∧ Nested word ∧ c.run word = c := by
  intro column before calls word c
  have hfresh : c.fresh = true := rfl
  obtain ⟨-, -, -, hundo, hrun⟩ := calls_undo_exactly.1 calls
  have hword : Nested word :=
    .group "or" (.group "ß" .nil (.group "and" .nil .nil)) .nil
  have hclose : c.closeEmpty = empty.run (before.map Call.meaning) := (hundo hfresh _ rfl).2
  exact ⟨by decide +kernel, by decide +kernel, hfresh, hclose, by decide +kernel, hrun, hword,
    calls_undo_exactly.2 word hword c⟩

end Conditions

end PortableSql
