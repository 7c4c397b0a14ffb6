import PortableSql.Proofs.Reading.Token

/-!
# Groups of tokens

The tokens of a text form groups: what stands between a parenthesis and the one that closes it is
one node.

* **`Node`**, `Node.word`; `Frames`, `Frames.push`: nodes, and how a token in front of others joins
  them.
* **`nodes?`**, **`Dialect.nodes`**: the nodes of tokens and of a text, if its parentheses match.
* `nodes?_append`, `nodes?_group`, `nodes?_of_flat`: nodes in a row, in a group and without groups.
* **`Dialect.nodes_append`**, **`Dialect.nodes_group`**, `Dialect.nodes_word`: the same for texts.
-/

namespace PortableSql

/-- **A token, or a group in parentheses.** -/
inductive Node where
  | token (t : Token)
  | group (nodes : List Node)

/-- The node of a word. -/
def Node.word (s : String) : Node := token (.word s.toList)

/-- The node is a quoted text with these characters. -/
def Node.quotes (s : String) : Node → Bool
  | .token (.quoted _ cs) => cs = s.toList
  | _ => false

/-- Nodes that are read from the right: the first ones, and for every closing parenthesis that has
no opening one yet the nodes after it. -/
abbrev Frames := List Node × List (List Node)

namespace Frames

/-- A token in front of what has been read. -/
def push : Token → Frames → Option Frames
  | .closing, (ns, after) => some ([], ns :: after)
  | .opening, (_, []) => none
  | .opening, (ns, ms :: after) => some (.group ns :: ms, after)
  | t, (ns, after) => some (.token t :: ns, after)

/-- The nodes of tokens, whose closing parentheses may lack the opening ones. -/
def read : List Token → Option Frames
  | [] => some ([], [])
  | t :: ts => (read ts).bind (push t)

/-- Frames in front of others: the last nodes of the former join the first of the latter. -/
def before : List Node → List (List Node) → Frames → Frames
  | ns, [], g => (ns ++ g.1, g.2)
  | ns, ms :: rest, g => (ns, (before ms rest g).1 :: (before ms rest g).2)

theorem before_cons (n : Node) (ns : List Node) (after : List (List Node)) (g : Frames) :
    before (n :: ns) after g = (n :: (before ns after g).1, (before ns after g).2) := by
  cases after <;> rfl

theorem push_before {t : Token} {f f' : Frames} (h : push t f = some f') (g : Frames) :
    push t (before f.1 f.2 g) = some (before f'.1 f'.2 g) := by
  obtain ⟨ns, after⟩ := f
  cases t with
  | closing =>
    cases h
    rfl
  | opening =>
    cases after with
    | nil => cases h
    | cons ms rest =>
      cases h
      rw [before_cons]
      rfl
  | word cs =>
    cases h
    rw [before_cons]
    rfl
  | quoted q cs =>
    cases h
    rw [before_cons]
    rfl
  | symbol c =>
    cases h
    rw [before_cons]
    rfl

theorem read_append {ts : List Token} {f : Frames} (h : read ts = some f) (us : List Token) :
    read (ts ++ us) = (read us).map (before f.1 f.2) := by
  induction ts generalizing f with
  | nil =>
    cases h
    exact Option.map_id_apply.symm
  | cons t ts ih =>
    obtain ⟨f', hf', hpush⟩ := Option.bind_eq_some_iff.mp h
    rw [List.cons_append, read, ih hf']
    cases hus : read us with
    | none => rfl
    | some g => exact push_before hpush g

end Frames

/-- **The nodes of tokens**, if every parenthesis has its counterpart. -/
def nodes? (ts : List Token) : Option (List Node) :=
  match Frames.read ts with
  | some (ns, []) => some ns
  | _ => none

theorem read_of_nodes? {ts : List Token} {ns : List Node} (h : nodes? ts = some ns) :
    Frames.read ts = some (ns, []) := by
  unfold nodes? at h
  split at h
  case h_1 ms hread =>
    cases h
    exact hread
  case h_2 => cases h

theorem nodes?_append {ts : List Token} {ns : List Node} (h : nodes? ts = some ns)
    (us : List Token) : nodes? (ts ++ us) = (nodes? us).map (ns ++ ·) := by
  rw [nodes?, Frames.read_append (read_of_nodes? h), nodes?]
  rcases Frames.read us with _ | ⟨ms, _ | ⟨ls, after⟩⟩ <;> simp [Frames.before]

theorem nodes?_group {ts : List Token} {ns : List Node} (h : nodes? ts = some ns)
    (us : List Token) :
    nodes? (.opening :: (ts ++ .closing :: us)) = (nodes? us).map (.group ns :: ·) := by
  rw [nodes?, Frames.read, Frames.read_append (read_of_nodes? h), Frames.read, nodes?]
  rcases Frames.read us with _ | ⟨ms, _ | ⟨ls, after⟩⟩ <;> simp [Frames.push, Frames.before]

/-- Without parentheses every token is a node. -/
theorem nodes?_of_flat {ts : List Token} (h : ∀ t ∈ ts, t ≠ .opening ∧ t ≠ .closing) :
    nodes? ts = some (ts.map .token) := by
  have hread : Frames.read ts = some (ts.map .token, []) := by
    induction ts with
    | nil => rfl
    | cons t ts ih =>
      obtain ⟨⟨ho, hc⟩, hts⟩ := List.forall_mem_cons.mp h
      rw [Frames.read, ih hts]
      cases t with
      | opening => exact absurd rfl ho
      | closing => exact absurd rfl hc
      | word cs => rfl
      | quoted q cs => rfl
      | symbol c => rfl
  rw [nodes?, hread]

/-! ## Texts -/

namespace Dialect

/-- **The nodes of a text.** -/
def nodes (d : Dialect) (text : String) : Option (List Node) := (d.tokens text).bind nodes?

/-- The text is empty or starts with a separator. -/
def StartsApart (t : String) : Prop := ∀ c ∈ t.toList.head?, c ∈ separators

theorem startsApart_nil : StartsApart "" := fun _ hc => nomatch hc

theorem startsApart_blank (t : String) : StartsApart (" " ++ t) := by
  intro c hc
  have hhead : (" " ++ t).toList.head? = some ' ' := by simp
  rw [hhead] at hc
  cases hc
  decide

theorem StartsApart.append {s t : String} (hs : StartsApart s) (ht : StartsApart t) :
    StartsApart (s ++ t) := by
  intro c hc
  rw [String.toList_append, List.head?_append] at hc
  cases hhead : s.toList.head? with
  | none =>
    rw [hhead] at hc
    exact ht c hc
  | some a =>
    rw [hhead] at hc
    exact hs c (hhead ▸ hc)

variable {d : Dialect} (hd : d.Separates)

include hd

theorem tokens_append_apart {s t : String} {ts : List Token} (hs : d.tokens s = some ts)
    (ht : StartsApart t) : d.tokens (s ++ t) = (d.tokens t).map (ts ++ ·) := by
  cases hcs : t.toList with
  | nil =>
    obtain rfl := String.toList_eq_nil_iff.mp hcs
    have htokens : d.tokens "" = some [] := rfl
    rw [String.append_empty, hs, htokens, Option.map_some, List.append_nil]
  | cons c cs =>
    have hc : c ∈ t.toList.head? := by rw [hcs]; rfl
    exact tokens_append hd hs ⟨c, hc, ht c hc⟩

/-- **Nodes in a row.** -/
theorem nodes_append {s t : String} {ns : List Node} (hs : d.nodes s = some ns)
    (ht : StartsApart t) : d.nodes (s ++ t) = (d.nodes t).map (ns ++ ·) := by
  obtain ⟨ts, hts, hns⟩ := Option.bind_eq_some_iff.mp hs
  rw [nodes, tokens_append_apart hd hts ht, nodes]
  cases d.tokens t with
  | none => rfl
  | some us => exact nodes?_append hns us

/-- **A group in front of nodes.** -/
theorem nodes_group {s : String} {ns : List Node} (hs : d.nodes s = some ns) (t : String) :
    d.nodes ("(" ++ s ++ ")" ++ t) = (d.nodes t).map (.group ns :: ·) := by
  obtain ⟨ts, hts, hns⟩ := Option.bind_eq_some_iff.mp hs
  have hclosing : StartsApart (")" ++ t) := by
    intro c hc
    have hhead : (")" ++ t).toList.head? = some ')' := by simp
    rw [hhead] at hc
    cases hc
    decide
  rw [nodes, String.append_assoc, String.append_assoc, tokens_opening hd,
    tokens_append_apart hd hts hclosing, tokens_closing hd, nodes]
  cases d.tokens t with
  | none => rfl
  | some us => exact nodes?_group hns us

theorem nodes_blank (t : String) : d.nodes (" " ++ t) = d.nodes t := by
  rw [nodes, tokens_blank hd, nodes]

/-- A word in front of nodes. -/
theorem nodes_word {s t : String} (h : IsWord s) (ht : StartsApart t) :
    d.nodes (s ++ t) = (d.nodes t).map (.token (.word s.toList) :: ·) := by
  have hword : d.nodes s = some [.token (.word s.toList)] := by
    rw [nodes, d.tokens_word h]
    rfl
  exact nodes_append hd hword ht

end Dialect

end PortableSql
