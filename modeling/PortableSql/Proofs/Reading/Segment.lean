import PortableSql.Proofs.Reading.Node
import PortableSql.Statement.Compound

/-!
# The segments of a query

After its first part a query goes on in segments, each of which starts with a keyword: a further
query after an operator, an order, a limit, an offset.

* **`Mark`**, `Node.mark?`, `Unmarked`: the keywords that start segments.
* `splitMarks`: nodes, taken apart at these keywords.
* **`Segment`**, `Segment.nodes`, `Segment.Fits`: segments as data, and how they are written.
* **`segments_unique`**: nodes are those of one list of segments only.
-/

namespace PortableSql

/-- **The keyword that starts a segment.** -/
inductive Mark where
  | combine (o : Combination)
  | order | limit | offset
  deriving Repr, DecidableEq

namespace Mark

/-- The first word of the segment. -/
def keyword : Mark → String
  | combine o => o.keyword
  | order => "ORDER"
  | limit => "LIMIT"
  | offset => "OFFSET"

/-- All keywords that start segments. -/
def all : List Mark :=
  [combine .union, combine .intersect, combine .except, order, limit, offset]

end Mark

namespace Node

/-- The keyword that a node is, if it starts a segment. -/
def mark? : Node → Option Mark
  | token (.word cs) => Mark.all.find? (·.keyword.toList = cs)
  | _ => none

theorem mark?_word (m : Mark) : (word m.keyword).mark? = some m := by
  rcases m with (_ | _ | _) | _ | _ | _ <;> decide

theorem word_injective {s t : String} (h : word s = word t) : s = t :=
  String.toList_inj.mp (Token.word.inj (token.inj h))

/-- A number starts no segment. -/
theorem mark?_digits (n : Nat) : (word (toString n)).mark? = none := by
  have hkeywords : ∀ m ∈ Mark.all, ¬ m.keyword.toList.all Char.isDigit = true := by decide
  have hdigits : (toString n).toList.all Char.isDigit = true := by
    refine List.all_eq_true.mpr fun c hc => ?_
    rw [Nat.toString_eq_ofList_toDigits, String.toList_ofList] at hc
    exact Nat.isDigit_of_mem_toDigits (by decide) (by decide) hc
  refine List.find?_eq_none.mpr fun m hm heq => hkeywords m hm ?_
  rw [of_decide_eq_true heq]
  exact hdigits

end Node

/-- None of the nodes starts a segment. -/
def Unmarked (ns : List Node) : Prop := ∀ n ∈ ns, n.mark? = none

/-- **What stands before the first keyword, and after each of them.** -/
def splitMarks : List Node → List Node × List (Mark × List Node)
  | [] => ([], [])
  | n :: ns =>
    match n.mark? with
    | none => (n :: (splitMarks ns).1, (splitMarks ns).2)
    | some m => ([], (m, (splitMarks ns).1) :: (splitMarks ns).2)

theorem splitMarks_append {ns : List Node} (h : Unmarked ns) (ms : List Node) :
    splitMarks (ns ++ ms) = (ns ++ (splitMarks ms).1, (splitMarks ms).2) := by
  induction ns with
  | nil => rfl
  | cons n ns ih =>
    obtain ⟨hn, hns⟩ := List.forall_mem_cons.mp h
    rw [List.cons_append, splitMarks, hn, ih hns]
    rfl

/-! ## Segments -/

/-- **A segment of a query**: a further query after an operator, up to its own segments, or a
clause. Queries and items are given by their nodes. -/
inductive Segment where
  | combine (o : Combination) (all : Bool) (query : List Node)
  | order (items : List Node)
  | limit (n : Nat)
  | offset (n : Nat)

namespace Segment

/-- The keyword that starts the segment. -/
def mark : Segment → Mark
  | combine o _ _ => .combine o
  | order _ => .order
  | limit _ => .limit
  | offset _ => .offset

/-- The nodes after the keyword. -/
def body : Segment → List Node
  | combine _ all query => (if all then [.word "ALL"] else []) ++ query
  | order items => .word "BY" :: items
  | limit n | offset n => [.word (toString n)]

/-- The nodes of the segment. -/
def nodes (s : Segment) : List Node := .word s.mark.keyword :: s.body

/-- A query starts with `SELECT`, and nothing in the segment starts another one. -/
def Fits : Segment → Prop
  | combine _ _ query => Unmarked query ∧ query.head? = some (.word "SELECT")
  | order items => Unmarked items
  | limit _ | offset _ => True

theorem unmarked_body {s : Segment} (h : s.Fits) : Unmarked s.body := by
  cases s with
  | combine o all query =>
    have hall : Unmarked (if all then [Node.word "ALL"] else []) := by
      have : (Node.word "ALL").mark? = none := by decide
      cases all <;> simp [Unmarked, this]
    exact fun n hn => (List.mem_append.mp hn).elim (hall n) (h.1 n)
  | order items =>
    have hby : (Node.word "BY").mark? = none := by decide
    exact List.forall_mem_cons.mpr ⟨hby, h⟩
  | limit n => exact List.forall_mem_singleton.mpr (Node.mark?_digits n)
  | offset n => exact List.forall_mem_singleton.mpr (Node.mark?_digits n)

theorem splitMarks_nodes {ss : List Segment} (h : ∀ s ∈ ss, s.Fits) :
    splitMarks (ss.flatMap nodes) = ([], ss.map fun s => (s.mark, s.body)) := by
  induction ss with
  | nil => rfl
  | cons s ss ih =>
    obtain ⟨hs, hss⟩ := List.forall_mem_cons.mp h
    rw [List.flatMap_cons, nodes, List.cons_append, splitMarks, Node.mark?_word,
      splitMarks_append (unmarked_body hs), ih hss, List.append_nil, List.map_cons]

theorem digits_injective {m n : Nat} (h : [Node.word (toString m)] = [Node.word (toString n)]) :
    m = n := by
  have hdigits := congrArg String.toList (Node.word_injective (List.cons.inj h).1)
  simp only [Nat.toString_eq_ofList_toDigits, String.toList_ofList] at hdigits
  calc
    m = Nat.ofDigitChars 10 (Nat.toDigits 10 m) 0 := Nat.ofDigitChars_ten_toDigits.symm
    _ = Nat.ofDigitChars 10 (Nat.toDigits 10 n) 0 := by rw [hdigits]
    _ = n := Nat.ofDigitChars_ten_toDigits

/-- A segment is known by its keyword and what comes after it. -/
theorem eq_of_body_eq {s t : Segment} (hs : s.Fits) (ht : t.Fits) (hmark : s.mark = t.mark)
    (hbody : s.body = t.body) : s = t := by
  have hall {ns : List Node} (h : ns.head? = some (.word "SELECT")) (ms : List Node) :
      Node.word "ALL" :: ms ≠ ns := by
    rintro rfl
    have hne : "ALL" ≠ "SELECT" := by decide
    exact hne (Node.word_injective (Option.some.inj h))
  cases s <;> cases t <;> cases hmark
  case combine.combine.refl o all query all' query' =>
    cases all <;> cases all'
    · exact congrArg _ hbody
    · exact absurd hbody.symm (hall hs.2 query')
    · exact absurd hbody (hall ht.2 query)
    · exact congrArg _ (List.cons.inj hbody).2
  case order.order.refl items items' => exact congrArg _ (List.cons.inj hbody).2
  case limit.limit.refl m n => exact congrArg _ (digits_injective hbody)
  case offset.offset.refl m n => exact congrArg _ (digits_injective hbody)

theorem eq_of_bodies_eq {ss ts : List Segment} (hs : ∀ s ∈ ss, s.Fits) (ht : ∀ t ∈ ts, t.Fits)
    (h : ss.map (fun s => (s.mark, s.body)) = ts.map fun t => (t.mark, t.body)) : ss = ts := by
  induction ss generalizing ts with
  | nil => exact (List.map_eq_nil_iff.mp h.symm).symm
  | cons s ss ih =>
    cases ts with
    | nil => cases h
    | cons t ts =>
      obtain ⟨hs, hss⟩ := List.forall_mem_cons.mp hs
      obtain ⟨ht, hts⟩ := List.forall_mem_cons.mp ht
      obtain ⟨hst, h⟩ := List.cons.inj h
      obtain ⟨hmark, hbody⟩ := Prod.mk.inj hst
      rw [eq_of_body_eq hs ht hmark hbody, ih hss hts h]

end Segment

/-- **Nodes are those of one query and one list of segments only.** -/
theorem segments_unique {ns ms : List Node} {ss ts : List Segment} (hns : Unmarked ns)
    (hms : Unmarked ms) (hs : ∀ s ∈ ss, s.Fits) (ht : ∀ t ∈ ts, t.Fits)
    (h : ns ++ ss.flatMap Segment.nodes = ms ++ ts.flatMap Segment.nodes) : ns = ms ∧ ss = ts := by
  have hsplit := congrArg splitMarks h
  rw [splitMarks_append hns, splitMarks_append hms, Segment.splitMarks_nodes hs,
    Segment.splitMarks_nodes ht, List.append_nil, List.append_nil] at hsplit
  obtain ⟨hcore, hbodies⟩ := Prod.mk.inj hsplit
  exact ⟨hcore, Segment.eq_of_bodies_eq hs ht hbodies⟩

end PortableSql
