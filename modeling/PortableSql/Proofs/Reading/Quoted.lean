import PortableSql.Proofs.Name.Path
import PortableSql.Proofs.Reading.Formula

/-!
# Names and texts are single tokens

Whatever characters a name or a text holds, its quoted form is one token. What is made up of names
and texts is read as it is meant, and without connectives it is an atom.

* `Mode.tokens_of_readInside`: the inside of quoted texts is read as it is meant.
* **`Engine.nodes_quote_append`**, **`Engine.nodes_quoteText_append`**: quoted names and texts, with
  anything after them that does not begin with their closing delimiter.
* `Engine.nodes_join`: several of them, with commas between.
* `Engine.separates`; `Dialect.compile_column`: columns without a qualifier.
* **`Formula.ofNodes?_of_simple`**, **`Formula.ofNodes?_of_range`**: nodes without connectives are
  an atom, and so are a `BETWEEN` and its bounds.
-/

namespace PortableSql

/-- The inside of a quoted text is read as it is meant. -/
theorem Mode.tokens_of_readInside (delimiters : List Delimiter) {q : Delimiter}
    {cs s rest : List Char} (h : Text.readInside q.right q.escape cs = some (s, rest))
    (text : List Char) :
    tokens delimiters (inside q text) cs = tokens delimiters (closed q (text ++ s)) rest := by
  have hstep (m n : Mode) (c : Char) {cs : List Char} (hm : m.step delimiters c = ([], n)) :
      tokens delimiters m (c :: cs) = tokens delimiters n cs := by
    rw [tokens, hm]
    exact Option.map_id_apply
  have hclose (text : List Char) (hne : ¬ some q.right = q.escape) :
      (inside q text).step delimiters q.right = ([], closed q text) := by
    rw [step, if_neg hne, if_pos rfl]
  fun_induction Text.readInside q.right q.escape cs generalizing s text with
  | case1 | case2 => cases h
  | case3 e he c cs ih =>
    obtain ⟨t, ht, rfl⟩ := Text.exists_of_map_cons h
    have he' : (inside q text).step delimiters e = ([], escaped q text) := by rw [step, if_pos he]
    rw [hstep _ _ e he', hstep _ _ c rfl, ih ht, List.append_assoc]
    rfl
  | case4 hne | case6 e cs hne =>
    cases h
    rw [hstep _ _ q.right (hclose text ‹_›), List.append_nil]
  | case5 cs hne ih =>
    obtain ⟨t, ht, rfl⟩ := Text.exists_of_map_cons h
    have hdouble :
        (closed q text).step delimiters q.right = ([], inside q (text ++ [q.right])) := by
      rw [step, if_pos rfl]
    rw [hstep _ _ q.right (hclose text hne), hstep _ _ q.right hdouble, ih ht, List.append_assoc]
    rfl
  | case7 c cs he hc ih =>
    obtain ⟨t, ht, rfl⟩ := Text.exists_of_map_cons h
    have hc' : (inside q text).step delimiters c = ([], inside q (text ++ [c])) := by
      rw [step, if_neg he, if_neg hc]
    rw [hstep _ _ c hc', ih ht, List.append_assoc]
    rfl

/-- What a character opens is read to its closing delimiter. -/
theorem Mode.tokens_left {delimiters : List Delimiter} {q : Delimiter}
    (hq : delimiters.find? (·.left = q.left) = some q) (hw : Text.isWordChar q.left = false)
    {cs s rest : List Char} (h : Text.readInside q.right q.escape cs = some (s, rest)) :
    tokens delimiters (plain []) (q.left :: cs) = tokens delimiters (closed q s) rest := by
  have hstart : (plain []).step delimiters q.left = ([], inside q []) := by
    rw [step, next, if_neg (by simp [hw]), start, hq]
    rfl
  rw [tokens, hstart, tokens_of_readInside delimiters h, List.nil_append]
  exact Option.map_id_apply

/-- **A quoted text is one token**, whatever comes after its closing delimiter. -/
theorem Mode.tokens_quoted {delimiters : List Delimiter} {q : Delimiter}
    (hq : delimiters.find? (·.left = q.left) = some q) (hw : Text.isWordChar q.left = false)
    {cs s rest : List Char} (h : Text.readInside q.right q.escape cs = some (s, rest))
    (hrest : rest.head? ≠ some q.right) :
    tokens delimiters (plain []) (q.left :: cs) =
      (tokens delimiters (plain []) rest).map (.quoted q.left s :: ·) := by
  rw [tokens_left hq hw h]
  cases rest with
  | nil => rfl
  | cons c cs =>
    have hc : ¬ c = q.right := fun hc => hrest (congrArg some hc)
    rw [tokens, step, if_neg hc, tokens, Option.map_map]
    rfl

/-- A token that is no parenthesis, in front of nodes. -/
theorem nodes?_cons {t : Token} (ht : t ≠ .opening ∧ t ≠ .closing) (ts : List Token) :
    nodes? (t :: ts) = (nodes? ts).map (.token t :: ·) :=
  nodes?_append (nodes?_of_flat (List.forall_mem_singleton.mpr ht)) ts

theorem Dialect.nodes_of_tokens {d : Dialect} {s rest : String} {t : Token}
    (ht : t ≠ .opening ∧ t ≠ .closing) (h : d.tokens s = (d.tokens rest).map (t :: ·)) :
    d.nodes s = (d.nodes rest).map (.token t :: ·) := by
  rw [nodes, nodes, h]
  cases d.tokens rest with
  | none => rfl
  | some ts => exact nodes?_cons ht ts

namespace Engine

variable (e : Engine)

theorem separates : (Dialect.builtin e).Separates := by
  cases e <;> decide

/-- The node of a quoted name. -/
def nameNode (name : String) : Node := .token (.quoted e.quotes.left name.toList)

/-- A text between single quotes. -/
def quoteText (s : String) : String := "'" ++ e.escape s ++ "'"

/-- The node of a quoted text. -/
def textNode (s : String) : Node := .token (.quoted '\'' s.toList)

/-- **A quoted name in front of nodes.** -/
theorem nodes_quote_append (name rest : String) (h : rest.toList.head? ≠ some e.quotes.right) :
    (Dialect.builtin e).nodes ((Dialect.builtin e).quote name ++ rest) =
      ((Dialect.builtin e).nodes rest).map (e.nameNode name :: ·) := by
  refine Dialect.nodes_of_tokens (by simp) ?_
  rw [Dialect.tokens, String.toList_append, Dialect.toList_quote_append]
  exact Mode.tokens_quoted (q := ⟨e.quotes.left, e.quotes.right, none⟩) (by cases e <;> decide)
    (by cases e <;> decide) (Text.readInside_double _ _ h) h

/-- **A quoted text in front of nodes.** -/
theorem nodes_quoteText_append (s rest : String) (h : rest.toList.head? ≠ some '\'') :
    (Dialect.builtin e).nodes (e.quoteText s ++ rest) =
      ((Dialect.builtin e).nodes rest).map (textNode s :: ·) := by
  have hword : Text.isWordChar '\'' = false := by decide
  refine Dialect.nodes_of_tokens (by simp) ?_
  rw [Dialect.tokens, String.toList_append, quoteText, e.toList_quoteText_append]
  exact Mode.tokens_quoted (q := ⟨'\'', '\'', e.escapeSign⟩) (by cases e <;> decide) hword
    (e.readInside_escape s h) h

theorem nodes_quote (name : String) :
    (Dialect.builtin e).nodes ((Dialect.builtin e).quote name) = some [e.nameNode name] := by
  have h := e.nodes_quote_append name "" (by simp)
  rwa [String.append_empty] at h

theorem nodes_quoteText (s : String) :
    (Dialect.builtin e).nodes (e.quoteText s) = some [textNode s] := by
  have h := e.nodes_quoteText_append s "" (by simp)
  rwa [String.append_empty] at h

/-! ### Lists -/

/-- A comma in front of nodes. -/
theorem nodes_comma (rest : String) :
    (Dialect.builtin e).nodes (", " ++ rest) =
      ((Dialect.builtin e).nodes rest).map (.token (.symbol ',') :: ·) := by
  have hword : Text.isWordChar ',' = false := by decide
  have hstart : Mode.start (Dialect.builtin e).delimiters ',' = ([.symbol ','], .plain []) := by
    cases e <;> decide
  have hcomma : (Dialect.builtin e).tokens (", " ++ rest) =
      ((Dialect.builtin e).tokens (" " ++ rest)).map (.symbol ',' :: ·) := by
    rw [Dialect.tokens, Dialect.tokens, String.toList_append, String.toList_append]
    change Mode.tokens _ _ (',' :: ' ' :: rest.toList) = _
    rw [Mode.tokens, Mode.step, Mode.next, if_neg (by simp [hword]), hstart]
    rfl
  rw [Dialect.tokens_blank e.separates] at hcomma
  exact Dialect.nodes_of_tokens (by simp) hcomma

end Engine

/-- Nodes with commas between them. -/
def Node.listed : List Node → List Node
  | [] => []
  | n :: ns => n :: ns.flatMap fun m => [.token (.symbol ','), m]

theorem Node.mem_listed {n : Node} {ns : List Node} (h : n ∈ listed ns) :
    n = .token (.symbol ',') ∨ n ∈ ns := by
  cases ns with
  | nil => cases h
  | cons m ns =>
    rw [listed, List.mem_cons, List.mem_flatMap] at h
    obtain rfl | ⟨k, hk, hn⟩ := h
    · exact .inr List.mem_cons_self
    · rw [List.mem_cons, List.mem_singleton] at hn
      obtain rfl | rfl := hn
      · exact .inl rfl
      · exact .inr (List.mem_cons_of_mem _ hk)

/-- **Texts with commas between them**, each of which is one node. -/
theorem Engine.nodes_join (e : Engine) {α : Type} {text : α → String} {node : α → Node}
    (h : ∀ a rest, (∀ c ∈ rest.toList.head?, c = ',') →
      (Dialect.builtin e).nodes (text a ++ rest) =
        ((Dialect.builtin e).nodes rest).map (node a :: ·)) (as : List α) :
    (Dialect.builtin e).nodes (Text.join ", " (as.map text)) =
      some (Node.listed (as.map node)) := by
  induction as with
  | nil => rfl
  | cons a as ih =>
    cases as with
    | nil =>
      have hone := h a "" (fun c hc => nomatch hc)
      rwa [String.append_empty] at hone
    | cons b as =>
      have hcomma : ∀ c ∈ (", " ++ Text.join ", " ((b :: as).map text)).toList.head?, c = ',' := by
        simp [String.toList_append]
      rw [List.map_cons, List.map_cons, Text.join, String.append_assoc, ← List.map_cons,
        h a _ hcomma, e.nodes_comma, ih]
      rfl

theorem Engine.nodes_join_quote (e : Engine) (names : List String) :
    (Dialect.builtin e).nodes (Text.join ", " (names.map (Dialect.builtin e).quote)) =
      some (Node.listed (names.map e.nameNode)) := by
  have hright : e.quotes.right ≠ ',' := by cases e <;> decide
  refine e.nodes_join (fun name rest h => ?_) names
  exact e.nodes_quote_append name rest fun hq => hright (h _ hq)

theorem Engine.nodes_join_quoteText (e : Engine) (texts : List String) :
    (Dialect.builtin e).nodes (Text.join ", " (texts.map e.quoteText)) =
      some (Node.listed (texts.map Engine.textNode)) := by
  have hquote : '\'' ≠ ',' := by decide
  refine e.nodes_join (fun s rest h => ?_) texts
  exact e.nodes_quoteText_append s rest fun hq => hquote (h _ hq)

/-- A column without a qualifier is its quoted name. -/
theorem Dialect.compile_column (d : Dialect) {name : String} (h : name ≠ "*") :
    (Value.column ⟨name, .none⟩).compile d = .ok (d.quote name) := by
  rw [Value.compile, columnText, if_neg h]
  exact congrArg Except.ok String.empty_append

/-! ## Atoms -/

/-- The node takes no part in how a condition is read. -/
def Node.isSimple (n : Node) : Bool := n.connective?.isNone && !n.isWord "BETWEEN"

theorem splitOperands_append_simple {ps : List Part} (h : ∀ p ∈ ps, p.1.isSimple = true)
    (bounds : Bool) (qs : List Part) :
    splitOperands bounds (ps ++ qs) = (splitOperands bounds qs).map fun r => (ps ++ r.1, r.2) := by
  induction ps with
  | nil => exact Option.map_id_apply.symm
  | cons p ps ih =>
    obtain ⟨hp, hps⟩ := List.forall_mem_cons.mp h
    rw [Node.isSimple, Bool.and_eq_true, Option.isNone_iff_eq_none, Bool.not_eq_true'] at hp
    rw [List.cons_append, splitOperands, hp.1, hp.2, Bool.or_false, ih hps, Option.map_map]
    rfl

theorem Formula.ofOperand?_cons_cons (p q : Part) (ps : List Part) :
    ofOperand? (p :: q :: ps) = some (.atom ((p :: q :: ps).map (·.1))) := by
  obtain ⟨_ | _, _⟩ := p <;> rfl

theorem parts_eq_map (ns : List Node) : parts ns = ns.map fun n => (n, n.formula?) := by
  induction ns with
  | nil => rfl
  | cons n ns ih => rw [parts, ih, List.map_cons]

theorem isSimple_parts {ns : List Node} (h : ∀ n ∈ ns, n.isSimple = true) :
    ∀ p ∈ parts ns, p.1.isSimple = true := by
  intro p hp
  rw [parts_eq_map] at hp
  obtain ⟨n, hn, rfl⟩ := List.mem_map.mp hp
  exact h n hn

/-- Several nodes that are one operand are an atom. -/
theorem Formula.ofNodes?_of_split {ns : List Node} (hlength : 2 ≤ ns.length)
    (h : splitOperands false (parts ns) = some (parts ns, [])) : ofNodes? ns = some (.atom ns) := by
  have hnodes : (parts ns).map (·.1) = ns := by
    rw [parts_eq_map, List.map_map]
    exact List.map_id _
  have hoperand : ofOperand? (parts ns) = some (.atom ns) := by
    obtain _ | ⟨n, _ | ⟨m, rest⟩⟩ := ns
    · cases hlength
    · cases Nat.le_of_succ_le_succ hlength
    · rw [parts, parts, ofOperand?_cons_cons, ← parts, ← parts, hnodes]
  rw [ofNodes?, ofParts?, h, Option.bind_some, hoperand]
  rfl

/-- **Simple nodes are an atom**, if there are several. -/
theorem Formula.ofNodes?_of_simple {ns : List Node} (hlength : 2 ≤ ns.length)
    (h : ∀ n ∈ ns, n.isSimple = true) : ofNodes? ns = some (.atom ns) := by
  refine ofNodes?_of_split hlength ?_
  have hsplit := splitOperands_append_simple (isSimple_parts h) false []
  rwa [List.append_nil, splitOperands, if_neg Bool.false_ne_true, Option.map_some,
    List.append_nil] at hsplit

/-- **A `BETWEEN` and its bounds are an atom**: the `AND` between them is no connective. -/
theorem Formula.ofNodes?_of_range {before low high : List Node}
    (hbefore : ∀ n ∈ before, n.isSimple = true) (hlow : ∀ n ∈ low, n.isSimple = true)
    (hhigh : ∀ n ∈ high, n.isSimple = true) :
    ofNodes? (before ++ .word "BETWEEN" :: (low ++ .word "AND" :: high)) =
      some (.atom (before ++ .word "BETWEEN" :: (low ++ .word "AND" :: high))) := by
  have hbetween : (Node.word "BETWEEN").connective? = none := by decide
  have hword : (Node.word "BETWEEN").isWord "BETWEEN" = true := by decide
  have hand : (Node.word "AND").connective? = some .and := by decide
  have hlast := splitOperands_append_simple (isSimple_parts hhigh) false []
  rw [List.append_nil, splitOperands, if_neg Bool.false_ne_true, Option.map_some,
    List.append_nil] at hlast
  refine ofNodes?_of_split (by simp; omega) ?_
  rw [parts_append, parts, parts_append, parts,
    splitOperands_append_simple (isSimple_parts hbefore), splitOperands, hbetween, hword,
    Bool.false_or, splitOperands_append_simple (isSimple_parts hlow), splitOperands, hand]
  simp [hlast]

end PortableSql
