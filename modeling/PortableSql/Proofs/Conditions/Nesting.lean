import PortableSql.Proofs.Conditions.Outline
import PortableSql.Proofs.Reading.Formula
import PortableSql.Proofs.Render.Phrase

/-!
# Chains in chains

An operand of a chain may be a chain itself. Calls are followed with nested chains in view, so that
they come to a tree of terms: predicates, groups and nested chains.

* `Conditions.Logic`, `Conditions.Leaf`, **`Conditions.Predicate`**: connectives, and predicates
  whose text is read as an atom.
* **`Conditions.NestedCall`**, `NestedCall.step`: calls whose operand may be a chain that calls
  build.
* **`Conditions.Term`**, `Conditions.DeepOutline`, **`Conditions.terms`**: the tree that calls come
  to.
* `Term.item`, `DeepOutline.shallow_run`: without the view into nested chains it is the outline.
* `Fills`: templates that are filled in front of others; **`Term.compile_chain`**: the text of a
  chain.
-/

namespace PortableSql

namespace Conditions

/-! ## Leaves -/

/-- **A connective as it is typed.** -/
structure Logic where
  text : String
  connective : Connective
  keyword_eq : Text.keyword text = connective.keyword

/-- `and`. -/
def Logic.and : Logic := ⟨"and", .and, by decide⟩

/-- `or`. -/
def Logic.or : Logic := ⟨"or", .or, by decide⟩

/-- What is no chain: a predicate, or a value that stands as one. -/
inductive Leaf where
  | predicate (left : Value) (operator : String) (right : Value)
  | fragment (v : Value)

namespace Leaf

/-- The step that adds the leaf. -/
def step (logic : String) : Leaf → Step
  | predicate left operator right => .add logic left operator right
  | fragment v => .addValue logic v

/-- The leaf as an item. -/
def item (logic : String) : Leaf → Item
  | predicate left operator right => .predicate logic left operator right
  | fragment v => .value logic v

/-- The leaf as a value. -/
def toValue (l : Leaf) : Value :=
  .expression (.withParameters (l.item "").text (l.item "").operands)

end Leaf

/-- **A predicate whose text is read as an atom.** -/
structure Predicate (d : Dialect) where
  leaf : Leaf
  text : String
  atom : List Node
  compile_eq : leaf.toValue.compile d = .ok text
  condition_eq : d.condition? text = some (.atom atom)

/-! ## Calls and terms -/

/-- A call on a chain, whose operand may be a chain that calls build. -/
inductive NestedCall (d : Dialect) where
  | predicate (logic : Logic) (p : Predicate d)
  | nested (logic : Logic) (calls : List (NestedCall d))
  | openGroup (logic : Logic)
  | closeGroup
  | closeEmpty

mutual

/-- The step of a call. -/
def NestedCall.step {d : Dialect} : NestedCall d → Step
  | .predicate logic p => p.leaf.step logic.text
  | .nested logic calls => .addValue logic.text (run empty (steps calls)).toValue
  | .openGroup logic => .openGroup logic.text
  | .closeGroup => .closeGroup
  | .closeEmpty => .closeEmpty

/-- The steps of calls. -/
def steps {d : Dialect} : List (NestedCall d) → List Step
  | [] => []
  | k :: ks => k.step :: steps ks

end

/-- **What a chain consists of**, each with its connective. -/
inductive Term (d : Dialect) where
  | predicate (logic : Logic) (p : Predicate d)
  | group (logic : Logic) (terms : List (Term d))
  | nested (logic : Logic) (terms : List (Term d))

/-- The frames of a chain under construction, with nested chains in view. -/
inductive DeepOutline (d : Dialect) where
  | chain (terms : List (Term d))
  | inGroup (outer : DeepOutline d) (logic : Logic) (terms : List (Term d))

namespace DeepOutline

variable {d : Dialect}

/-- The terms of the innermost frame. -/
def terms : DeepOutline d → List (Term d)
  | chain terms => terms
  | inGroup _ _ terms => terms

/-- One more term in the innermost frame. -/
def append (t : Term d) : DeepOutline d → DeepOutline d
  | chain terms => chain (terms ++ [t])
  | inGroup outer logic terms => inGroup outer logic (terms ++ [t])

/-- The number of open groups. -/
def depth : DeepOutline d → Nat
  | chain _ => 0
  | inGroup outer _ _ => outer.depth + 1

/-- The innermost frame becomes a group of the next one. -/
def closeGroup : DeepOutline d → DeepOutline d
  | chain terms => chain terms
  | inGroup outer logic terms => outer.append (.group logic terms)

/-- An empty frame is taken back, and any other one closed. -/
def closeEmpty : DeepOutline d → DeepOutline d
  | inGroup outer _ [] => outer
  | o => o.closeGroup

/-- The terms when all open groups are closed in order. -/
def closeAll (o : DeepOutline d) : List (Term d) := (closeGroup^[o.depth] o).terms

mutual

/-- The outline after a call. -/
def act (o : DeepOutline d) : NestedCall d → DeepOutline d
  | .predicate logic p => o.append (.predicate logic p)
  | .nested logic calls => o.append (.nested logic (run (chain []) calls).closeAll)
  | .openGroup logic => inGroup o logic []
  | .closeGroup => o.closeGroup
  | .closeEmpty => o.closeEmpty

/-- The outline after calls. -/
def run (o : DeepOutline d) : List (NestedCall d) → DeepOutline d
  | [] => o
  | k :: ks => run (o.act k) ks

end

end DeepOutline

/-- **The terms of the chain that calls build.** -/
def terms {d : Dialect} (calls : List (NestedCall d)) : List (Term d) :=
  (DeepOutline.run (.chain []) calls).closeAll

variable {d : Dialect}

/-- Induction on calls, where nested calls have the property. -/
@[elab_as_elim]
theorem NestedCall.induct {P : NestedCall d → Prop}
    (predicate : ∀ logic p, P (.predicate logic p))
    (nested : ∀ logic calls, (∀ k ∈ calls, P k) → P (.nested logic calls))
    (openGroup : ∀ logic, P (.openGroup logic)) (closeGroup : P .closeGroup)
    (closeEmpty : P .closeEmpty) (k : NestedCall d) : P k := by
  refine @NestedCall.rec d P (fun ks => ∀ k ∈ ks, P k) predicate nested openGroup closeGroup
    closeEmpty ?_ ?_ k
  · exact fun _ h => nomatch h
  · exact fun _ _ hk hks => List.forall_mem_cons.mpr ⟨hk, hks⟩

/-- Induction on terms, where the terms of groups and nested chains have the property. -/
@[elab_as_elim]
theorem Term.induct {P : Term d → Prop} (predicate : ∀ logic p, P (.predicate logic p))
    (group : ∀ logic terms, (∀ t ∈ terms, P t) → P (.group logic terms))
    (nested : ∀ logic terms, (∀ t ∈ terms, P t) → P (.nested logic terms)) (t : Term d) : P t := by
  refine @Term.rec d P (fun ts => ∀ t ∈ ts, P t) predicate group nested ?_ ?_ t
  · exact fun _ h => nomatch h
  · exact fun _ _ ht hts => List.forall_mem_cons.mpr ⟨ht, hts⟩

/-! ## Without the view into nested chains -/

/-- Items as the value of a chain. -/
def Item.toValue (items : List Item) : Value :=
  .expression (.withParameters (chainText items) (chainOperands items))

mutual

/-- The item that a term is in its chain. -/
def Term.item : Term d → Item
  | .predicate logic p => p.leaf.item logic.text
  | .group logic terms => .group logic.text (Term.items terms)
  | .nested logic terms => .value logic.text (Item.toValue (Term.items terms))

/-- The items that terms are. -/
def Term.items : List (Term d) → List Item
  | [] => []
  | t :: ts => t.item :: Term.items ts

end

theorem Term.items_append (ts us : List (Term d)) :
    Term.items (ts ++ us) = Term.items ts ++ Term.items us := by
  induction ts with
  | nil => rfl
  | cons t ts ih => rw [List.cons_append, items, ih, items, List.cons_append]

namespace DeepOutline

/-- The outline without the view into nested chains. -/
def shallow : DeepOutline d → Outline
  | chain terms => .chain (Term.items terms)
  | inGroup outer logic terms => .inGroup outer.shallow logic.text (Term.items terms)

theorem items_shallow (o : DeepOutline d) : o.shallow.items = Term.items o.terms := by
  cases o <;> rfl

theorem depth_shallow (o : DeepOutline d) : o.shallow.depth = o.depth := by
  induction o with
  | chain terms => rfl
  | inGroup outer logic terms ih => exact congrArg (· + 1) ih

theorem shallow_append (o : DeepOutline d) (t : Term d) :
    (o.append t).shallow = o.shallow.append t.item := by
  cases o <;> simp [append, shallow, Outline.append, Term.items_append, Term.items]

theorem shallow_closeGroup (o : DeepOutline d) : o.closeGroup.shallow = o.shallow.closeGroup := by
  cases o with
  | chain terms => rfl
  | inGroup outer logic terms => exact outer.shallow_append (.group logic terms)

theorem shallow_closeEmpty (o : DeepOutline d) : o.closeEmpty.shallow = o.shallow.closeEmpty := by
  rcases o with terms | ⟨outer, logic, _ | ⟨t, terms⟩⟩
  · rfl
  · rfl
  · exact shallow_closeGroup (inGroup outer logic (t :: terms))

theorem closeAll_shallow (o : DeepOutline d) : o.shallow.closeAll = Term.items o.closeAll := by
  have hiterate : Function.Semiconj (shallow (d := d)) closeGroup Outline.closeGroup :=
    shallow_closeGroup
  rw [closeAll, Outline.closeAll, depth_shallow, ← items_shallow]
  exact congrArg Outline.items (hiterate.iterate_right o.depth o).symm

/-- The value of the chain that steps build, once its outline is known. -/
theorem toValue_run {o : DeepOutline d} {ss : List Step} (h : Outline.run ss = o.shallow) :
    (Conditions.run empty ss).toValue = Item.toValue (Term.items o.closeAll) := by
  rw [Outline.run_written, h, toValue, Outline.toExpression_written, closeAll_shallow]
  rfl

theorem shallow_run_of {calls : List (NestedCall d)}
    (h : ∀ k ∈ calls, ∀ o : DeepOutline d, (o.act k).shallow = o.shallow.step k.step)
    (o : DeepOutline d) : (o.run calls).shallow = (steps calls).foldl Outline.step o.shallow := by
  induction calls generalizing o with
  | nil => rfl
  | cons k calls ih =>
    obtain ⟨hk, hrest⟩ := List.forall_mem_cons.mp h
    rw [run, ih hrest, hk, steps, List.foldl_cons]

/-- A call on the outline is a step without the view into nested chains. -/
theorem shallow_act (k : NestedCall d) : ∀ o : DeepOutline d,
    (o.act k).shallow = o.shallow.step k.step := by
  induction k using NestedCall.induct with
  | predicate logic p =>
    intro o
    rw [act, shallow_append, NestedCall.step, Term.item]
    cases p.leaf <;> rfl
  | nested logic calls ih =>
    intro o
    rw [act, shallow_append, NestedCall.step, Term.item]
    have hrun := shallow_run_of ih (.chain [])
    rw [toValue_run hrun.symm]
    rfl
  | openGroup logic => exact fun _ => rfl
  | closeGroup => exact shallow_closeGroup
  | closeEmpty => exact shallow_closeEmpty

end DeepOutline

/-- **A chain that calls build is the value of its terms.** -/
theorem toValue_steps (calls : List (NestedCall d)) :
    (run empty (steps calls)).toValue = Item.toValue (Term.items (terms calls)) := by
  refine DeepOutline.toValue_run (DeepOutline.shallow_run_of ?_ (.chain [])).symm
  exact fun k _ => DeepOutline.shallow_act k

end Conditions

/-! ## Templates in front of others -/

variable {d : Dialect}

/-- **The template is filled with the values and written as the text**, whatever comes after it. -/
def Fills (d : Dialect) (template : String) (operands : List Value) (text : String) : Prop :=
  ∀ (whole : String) (ps : List Piece) (used : Nat) (left : List (Except RenderError String)),
    fillFrom whole [] (Template.glue (Template.split template) ps) used
        (operands.map (Value.compile d) ++ left) =
      (fillFrom whole [] ps (used + operands.length) left).map (text ++ ·)

theorem Fills.append {s t : String} {vs ws : List Value} {x y : String} (hs : Fills d s vs x)
    (ht : Fills d t ws y) (h : Template.Seam s.toList t.toList) :
    Fills d (s ++ t) (vs ++ ws) (x ++ y) := by
  intro whole ps used left
  rw [Template.split_append h, Template.glue_glue, List.map_append, List.append_assoc, hs, ht,
    List.length_append, Nat.add_assoc]
  cases fillFrom whole [] ps (used + (vs.length + ws.length)) left with
  | error e => rfl
  | ok z => exact congrArg Except.ok (String.append_assoc ..).symm

theorem fillFrom_append_of_ok {whole : String} {ps : List Piece} {used : Nat}
    {actions : List (Except RenderError String)} {text : String}
    (h : fillFrom whole [] ps used actions = .ok text) (whole' : String) (qs : List Piece)
    (used' : Nat) (left : List (Except RenderError String)) :
    fillFrom whole' [] (ps ++ qs) used' (actions ++ left) =
      (fillFrom whole' [] qs (used' + actions.length) left).map (text ++ ·) := by
  have hbind {x : Except RenderError String} {s t : String}
      (h : (do return s ++ (← x)) = .ok t) : ∃ u, x = .ok u ∧ t = s ++ u := by
    cases x with
    | error e => cases h
    | ok u => exact ⟨u, rfl, (Except.ok.inj h).symm⟩
  have hmap {x : Except RenderError String} (s t : String) :
      (do return s ++ (← x.map (t ++ ·))) = x.map (s ++ t ++ ·) := by
    cases x with
    | error e => rfl
    | ok u => exact congrArg Except.ok (String.append_assoc ..).symm
  induction ps generalizing used used' actions text with
  | nil =>
    cases actions with
    | nil =>
      cases h
      rw [List.nil_append, List.nil_append, List.length_nil, Nat.add_zero]
      cases fillFrom whole' [] qs used' left with
      | error e => rfl
      | ok t => exact congrArg Except.ok String.empty_append.symm
    | cons a actions => cases h
  | cons p ps ih =>
    cases p with
    | text s =>
      obtain ⟨t, ht, rfl⟩ := hbind h
      rw [List.cons_append, fillFrom, ih ht, hmap]
    | positional =>
      cases actions with
      | nil => cases h
      | cons a actions =>
        cases a with
        | error e => cases h
        | ok s =>
          obtain ⟨t, ht, rfl⟩ := hbind h
          rw [List.cons_append, List.cons_append, fillFrom, ih ht, List.length_cons,
            Nat.add_right_comm, Nat.add_assoc]
          exact hmap s t
    | named token => cases h

/-- What is written on its own is written in front of others. -/
theorem Fills.of_compile {template : String} {v : Value} {vs : List Value} {text : String}
    (h : (Value.expression (.withParameters template (v :: vs))).compile d = .ok text) :
    Fills d template (v :: vs) text := by
  rw [Expression.withParameters, (renders_compile d).expression, if_neg (by simp)] at h
  intro whole ps used left
  rw [fillFrom_glue]
  exact (fillFrom_append_of_ok h whole ps used left).trans (by rw [List.length_map])

/-- A text without placeholders is written as it stands. -/
theorem Fills.of_text {s : String} (h : Template.split s = [.text s]) : Fills d s [] s := by
  intro whole ps used left
  rw [h, fillFrom_glue]
  rfl

theorem Fills.empty : Fills d "" [] "" := by
  intro whole ps used left
  change fillFrom whole [] ps used left = (fillFrom whole [] ps used left).map ("" ++ ·)
  cases fillFrom whole [] ps used left with
  | error e => rfl
  | ok t => exact congrArg Except.ok String.empty_append.symm

theorem Fills.of_value {v : Value} {text : String} (h : v.compile d = .ok text) :
    Fills d "?" [v] text := by
  have hsplit : Template.split "?" = [.positional] := by decide
  intro whole ps used left
  rw [hsplit, fillFrom_glue, List.map_singleton, h]
  rfl

/-- What fills a template with values compiles to its text. -/
theorem Fills.compile {template : String} {vs : List Value} {text : String}
    (h : Fills d template vs text) (hvs : vs ≠ []) :
    (Value.expression (.withParameters template vs)).compile d = .ok text := by
  have hempty : ¬ (vs.isEmpty && ([] : List (String × Value)).isEmpty) = true := by simpa using hvs
  rw [Expression.withParameters, (renders_compile d).expression, if_neg hempty]
  have hfill := h template [] 0 []
  rw [fillFrom_glue, List.append_nil, List.append_nil] at hfill
  exact hfill.trans (congrArg Except.ok String.append_empty)

namespace Conditions

/-! ## The text of a chain -/

/-- The connective of a term. -/
def Term.logic : Term d → Logic
  | .predicate logic _ => logic
  | .group logic _ => logic
  | .nested logic _ => logic

mutual

/-- The text of a term. -/
def Term.text : Term d → String
  | .predicate _ p => p.text
  | .group _ terms => "(" ++ Term.chainText terms ++ ")"
  | .nested _ terms => Term.chainText terms

/-- **The text of the terms of a chain.** -/
def Term.chainText : List (Term d) → String
  | [] => ""
  | t :: ts => t.text ++ Term.restText ts

/-- The text of terms that follow another one. -/
def Term.restText : List (Term d) → String
  | [] => ""
  | t :: ts => " " ++ (t.logic.connective.keyword ++ (" " ++ (t.text ++ Term.restText ts)))

end

mutual

/-- Every group and every nested chain of the term has a term. -/
def Term.filled : Term d → Bool
  | .predicate _ _ => true
  | .group _ terms => !terms.isEmpty && Term.allFilled terms
  | .nested _ terms => !terms.isEmpty && Term.allFilled terms

/-- Every group and every nested chain of the terms has a term. -/
def Term.allFilled : List (Term d) → Bool
  | [] => true
  | t :: ts => t.filled && Term.allFilled ts

end

theorem Term.allFilled_iff {ts : List (Term d)} :
    Term.allFilled ts = true ↔ ∀ t ∈ ts, t.filled = true := by
  induction ts with
  | nil => exact ⟨fun _ _ h => (nomatch h), fun _ => rfl⟩
  | cons t ts ih => rw [allFilled, Bool.and_eq_true, ih, List.forall_mem_cons]

theorem Leaf.operands_ne_nil (logic : String) (l : Leaf) : (l.item logic).operands ≠ [] := by
  cases l with
  | predicate left operator right =>
    rw [item, Item.operands, predicateOperands]
    split_ifs <;> exact List.cons_ne_nil _ _
  | fragment v => exact List.cons_ne_nil _ _

theorem Predicate.fills (p : Predicate d) (logic : String) :
    Fills d (p.leaf.item logic).text (p.leaf.item logic).operands p.text := by
  have hitem : (p.leaf.item logic).text = (p.leaf.item "").text ∧
      (p.leaf.item logic).operands = (p.leaf.item "").operands := by
    cases p.leaf <;> exact ⟨rfl, rfl⟩
  have hcompile := p.compile_eq
  rw [Leaf.toValue] at hcompile
  rw [hitem.1, hitem.2]
  obtain ⟨v, vs, hv⟩ := List.exists_cons_of_ne_nil (p.leaf.operands_ne_nil "")
  rw [hv] at hcompile ⊢
  exact Fills.of_compile hcompile

/-- A connective between blanks is written as it stands. -/
theorem Logic.fills (l : Logic) :
    Fills d (" " ++ Text.keyword l.text ++ " ") [] (" " ++ l.connective.keyword ++ " ") := by
  rw [l.keyword_eq]
  cases l.connective <;> exact Fills.of_text (by decide)

theorem seam_of_blank (s t : String) : Template.Seam (s ++ " ").toList t.toList :=
  .inl fun c hc => by
    rw [String.toList_append] at hc
    have hlast : (s.toList ++ " ".toList).getLast? = some ' ' := by simp
    rw [hlast] at hc
    cases hc
    decide

theorem Item.seam_restText (s : String) (items : List Item) :
    Template.Seam s.toList (restText items).toList := by
  refine .inr ?_
  cases items with
  | nil => exact fun c hc => nomatch hc
  | cons i items =>
    intro c hc
    have hhead : (restText (i :: items)).toList.head? = some ' ' := by
      simp [restText, String.toList_append]
    rw [hhead] at hc
    cases hc
    decide

theorem Term.logic_item (t : Term d) : t.item.logic = t.logic.text := by
  cases t with
  | predicate l p =>
    change (p.leaf.item l.text).logic = l.text
    cases p.leaf <;> rfl
  | group logic terms => rfl
  | nested logic terms => rfl

theorem Term.fills_rest {ts : List (Term d)}
    (h : ∀ t ∈ ts, Fills d t.item.text t.item.operands t.text) :
    Fills d (Item.restText (items ts)) (Item.chainOperands (items ts)) (restText ts) := by
  induction ts with
  | nil => exact Fills.empty
  | cons t ts ih =>
    obtain ⟨ht, hrest⟩ := List.forall_mem_cons.mp h
    have hconnective := (t.logic.fills (d := d)).append ht (seam_of_blank _ _)
    have hall := hconnective.append (ih hrest) (Item.seam_restText _ _)
    rw [items, Item.restText, Item.chainOperands, restText, t.logic_item]
    simpa only [List.nil_append, String.append_assoc] using hall

theorem Term.fills_chain {ts : List (Term d)}
    (h : ∀ t ∈ ts, Fills d t.item.text t.item.operands t.text) :
    Fills d (Item.chainText (items ts)) (Item.chainOperands (items ts)) (chainText ts) := by
  cases ts with
  | nil => exact Fills.empty
  | cons t ts =>
    obtain ⟨ht, hrest⟩ := List.forall_mem_cons.mp h
    exact ht.append (fills_rest hrest) (Item.seam_restText _ _)

theorem Term.operands_ne_nil (t : Term d) (h : t.filled = true) : t.item.operands ≠ [] := by
  induction t using Term.induct with
  | predicate logic p => exact p.leaf.operands_ne_nil logic.text
  | nested logic terms => exact List.cons_ne_nil _ _
  | group logic terms ih =>
    rw [filled, Bool.and_eq_true] at h
    cases terms with
    | nil => cases h.1
    | cons t terms =>
      have ht := ih t List.mem_cons_self (allFilled_iff.mp h.2 t List.mem_cons_self)
      rw [item, items, Item.operands, Item.chainOperands]
      exact List.append_ne_nil_of_left_ne_nil ht _

theorem Term.chainOperands_ne_nil {ts : List (Term d)} (hne : ts ≠ [])
    (h : allFilled ts = true) : Item.chainOperands (items ts) ≠ [] := by
  obtain ⟨t, rest, rfl⟩ := List.exists_cons_of_ne_nil hne
  rw [items, Item.chainOperands]
  have ht := t.operands_ne_nil (allFilled_iff.mp h t List.mem_cons_self)
  exact List.append_ne_nil_of_left_ne_nil ht _

theorem Term.filled_group {terms : List (Term d)}
    (h : (!terms.isEmpty && allFilled terms) = true) : terms ≠ [] ∧ allFilled terms = true := by
  rw [Bool.and_eq_true, Bool.not_eq_true', List.isEmpty_eq_false_iff] at h
  exact h

/-- A term is written as its text. -/
theorem Term.fills (t : Term d) (h : t.filled = true) :
    Fills d t.item.text t.item.operands t.text := by
  induction t using Term.induct with
  | predicate logic p => exact p.fills logic.text
  | group logic terms ih =>
    obtain ⟨-, hterms⟩ := filled_group h
    have hchain := fills_chain fun t ht => ih t ht (allFilled_iff.mp hterms t ht)
    have hopening : Fills d "(" [] "(" := .of_text (by decide)
    have hclosing : Fills d ")" [] ")" := .of_text (by decide)
    have hlast : ∀ c ∈ "(".toList.getLast?, Text.isBreak c = true := by
      rintro c ⟨⟩
      decide
    have hhead : ∀ c ∈ ")".toList.head?, Text.isBreak c = true := by
      rintro c ⟨⟩
      decide
    have hgroup := (hopening.append hchain (.inl hlast)).append hclosing (.inr hhead)
    rw [List.nil_append, List.append_nil] at hgroup
    exact hgroup
  | nested logic terms ih =>
    obtain ⟨hne, hterms⟩ := filled_group h
    have hchain := fills_chain fun t ht => ih t ht (allFilled_iff.mp hterms t ht)
    exact .of_value (hchain.compile (chainOperands_ne_nil hne hterms))

/-- **A chain compiles to the text of its terms.** -/
theorem Term.compile_chain {ts : List (Term d)} (hne : ts ≠ []) (h : allFilled ts = true) :
    (Item.toValue (items ts)).compile d = .ok (chainText ts) :=
  (fills_chain fun t ht => t.fills (allFilled_iff.mp h t ht)).compile (chainOperands_ne_nil hne h)

end Conditions

end PortableSql
