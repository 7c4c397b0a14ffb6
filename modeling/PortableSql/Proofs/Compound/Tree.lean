import PortableSql.Proofs.Reading.Phrase

/-!
# Queries of queries

The operands of a compound query may be compound queries themselves. Nested queries are written
without parentheses, so that a whole tree of them is one query and a list of segments.

* **`QueryCore`**, **`QueryTail`**, **`QueryTree`**, `QueryChain`: queries, taken apart.
* `QueryTree.toValue`, `QueryChain.toCompound`: the query that a tree stands for.
* `QueryTree.phrases`, **`QueryTree.compile_eq`**: what is written for a tree.
* **`QueryTree.head`**, **`QueryTree.segments`**: the first query, and what comes after it.
* **`QueryTree.readsAs`**: the text of a tree is read as that.
-/

namespace PortableSql

/-! ## Trees -/

/-- **A query without an order and limits**, whose text is read as nodes that start no segment. -/
structure QueryCore (d : Dialect) where
  query : Select
  bare : query.orderBy = [] ∧ query.limit = none ∧ query.offset = none
  nodes : List Node
  reads : query.toValue.ReadsAs d nodes
  unmarked : Unmarked nodes

/-- **The order and the limits of a query.** The items of the order are read as nodes that start no
segment. -/
structure QueryTail (d : Dialect) where
  orderBy : List OrderItem
  limit : Option Nat
  offset : Option Nat
  items : List Node
  reads : (Value.sequence (orderBy.map OrderItem.toValue)).ReadsAs d items
  unmarked : Unmarked items

mutual

/-- **A query**: a `SELECT` or queries in a chain, with an order and limits of its own. -/
inductive QueryTree (d : Dialect) where
  | select (core : QueryCore d) (tail : QueryTail d)
  | compound (chain : QueryChain d) (tail : QueryTail d)

/-- **Queries that are combined from left to right.** -/
inductive QueryChain (d : Dialect) where
  | first (q : QueryTree d)
  | combine (chain : QueryChain d) (o : Combination) (all : Bool) (q : QueryTree d)

end

variable {d : Dialect}

mutual

/-- The query of a tree. -/
def QueryTree.toValue : QueryTree d → Value
  | .select core tail =>
    ({ core.query with
      orderBy := tail.orderBy, limit := tail.limit, offset := tail.offset } : Select).toValue
  | .compound chain tail =>
    ({ chain.toCompound with
      orderBy := tail.orderBy, limit := tail.limit, offset := tail.offset } : Compound).toValue

/-- The compound query of a chain. -/
def QueryChain.toCompound : QueryChain d → Compound
  | .first q => { first := q.toValue }
  | .combine chain o all q => chain.toCompound.call (.combine ⟨o, all, q.toValue⟩)

end

/-! ## What is written -/

namespace QueryTail

/-- What is written for the order and the limits. -/
def phrases (t : QueryTail d) : List Phrase :=
  Phrase.orderBy t.orderBy ++ Phrase.count " LIMIT " t.limit ++ Phrase.count " OFFSET " t.offset

end QueryTail

/-- The keywords of an operator. -/
def Combination.words (o : Combination) (all : Bool) : List String :=
  o.keyword :: if all then ["ALL"] else []

mutual

/-- **What is written for a tree**; nested queries have no parentheses. -/
def QueryTree.phrases : QueryTree d → List Phrase
  | .select core tail => core.query.phrases ++ tail.phrases
  | .compound chain tail => chain.phrases ++ tail.phrases

/-- What is written for a chain. -/
def QueryChain.phrases : QueryChain d → List Phrase
  | .first q => q.phrases
  | .combine chain o all q => chain.phrases ++ .keyword (leadText (o.words all)) :: q.phrases

end

theorem QueryCore.phrases_with (core : QueryCore d) (tail : QueryTail d) :
    ({ core.query with
      orderBy := tail.orderBy, limit := tail.limit, offset := tail.offset } : Select).phrases =
      core.query.phrases ++ tail.phrases := by
  obtain ⟨horder, hlimit, hoffset⟩ := core.bare
  simp [Select.phrases, QueryTail.phrases, horder, hlimit, hoffset, Phrase.orderBy, Phrase.count]

theorem Compound.Operand.phrases_words (o : Compound.Operand) :
    o.phrases = [.keyword (leadText (o.operator.words o.all)), .content o.query] := by
  obtain ⟨o, all, q⟩ := o
  cases o <;> cases all <;> rfl

mutual

/-- **A tree is written as its phrases.** -/
theorem QueryTree.compile_eq (q : QueryTree d) :
    q.toValue.compile d = Phrase.write (Value.compile d) q.phrases := by
  match q with
  | .select core tail =>
    rw [QueryTree.toValue, Select.compile_eq, core.phrases_with, QueryTree.phrases]
  | .compound chain tail =>
    rw [QueryTree.toValue, Compound.compile_eq, QueryTree.phrases]
    simp only [Compound.phrases, QueryTail.phrases, List.append_assoc]
    exact Phrase.write_append_congr d chain.write_eq rfl

/-- A chain is written as its phrases. -/
theorem QueryChain.write_eq (c : QueryChain d) :
    Phrase.write (Value.compile d)
        (.content c.toCompound.first :: c.toCompound.operands.flatMap Compound.Operand.phrases) =
      Phrase.write (Value.compile d) c.phrases := by
  match c with
  | .first q =>
    rw [QueryChain.phrases, ← q.compile_eq]
    exact Phrase.write_content _ q.toValue
  | .combine chain o all q =>
    have hoperand : Phrase.write (Value.compile d) (Compound.Operand.phrases ⟨o, all, q.toValue⟩) =
        Phrase.write (Value.compile d) (.keyword (leadText (o.words all)) :: q.phrases) := by
      rw [Compound.Operand.phrases_words]
      exact Phrase.write_keyword_content d q.compile_eq
    rw [QueryChain.toCompound, QueryChain.phrases, Compound.call, List.flatMap_append,
      List.flatMap_singleton, ← List.cons_append]
    exact Phrase.write_append_congr d chain.write_eq hoperand

end

/-! ## What is read -/

/-- The segments of the order and the limits. -/
def QueryTail.segments (t : QueryTail d) : List Segment :=
  (if t.orderBy.isEmpty then [] else [.order t.items])
    ++ (t.limit.map fun n => .limit (cappedCount n)).toList
    ++ (t.offset.map fun n => .offset (cappedCount n)).toList

mutual

/-- **The first query of a tree**, as it is read. -/
def QueryTree.head : QueryTree d → List Node
  | .select core _ => core.nodes
  | .compound chain _ => chain.head

/-- The first query of a chain. -/
def QueryChain.head : QueryChain d → List Node
  | .first q => q.head
  | .combine chain _ _ _ => chain.head

end

mutual

/-- **What comes after the first query of a tree.** -/
def QueryTree.segments : QueryTree d → List Segment
  | .select _ tail => tail.segments
  | .compound chain tail => chain.segments ++ tail.segments

/-- What comes after the first query of a chain. -/
def QueryChain.segments : QueryChain d → List Segment
  | .first q => q.segments
  | .combine chain o all q => chain.segments ++ .combine o all q.head :: q.segments

end

/-- A query starts with `SELECT`. -/
theorem QueryCore.head?_nodes (hd : d.Separates) (core : QueryCore d) :
    core.nodes.head? = some (.word "SELECT") := by
  obtain ⟨s, hs, hns⟩ := core.reads
  obtain ⟨ps, hps⟩ : ∃ ps, core.query.phrases = .keyword "SELECT " :: ps := by
    simp only [Select.phrases, List.cons_append]
    exact ⟨_, rfl⟩
  rw [Select.compile_eq, hps] at hs
  obtain ⟨t, -, rfl⟩ := Phrase.write_keyword_eq_ok hs
  have htext : "SELECT " ++ t = "SELECT" ++ (" " ++ t) := by
    rw [← String.append_assoc]
    rfl
  rw [htext, Dialect.nodes_word hd (by decide) (Dialect.startsApart_blank t)] at hns
  obtain ⟨ns, -, hcore⟩ := Option.map_eq_some_iff.mp hns
  rw [← hcore]
  rfl

mutual

theorem QueryTree.head_fits (hd : d.Separates) (q : QueryTree d) :
    Unmarked q.head ∧ q.head.head? = some (.word "SELECT") := by
  match q with
  | .select core _ => exact ⟨core.unmarked, core.head?_nodes hd⟩
  | .compound chain _ => exact chain.head_fits hd

theorem QueryChain.head_fits (hd : d.Separates) (c : QueryChain d) :
    Unmarked c.head ∧ c.head.head? = some (.word "SELECT") := by
  match c with
  | .first q => exact q.head_fits hd
  | .combine chain _ _ _ => exact chain.head_fits hd

end

theorem QueryTail.segments_fit (t : QueryTail d) : ∀ s ∈ t.segments, s.Fits := by
  intro s hs
  simp only [segments, List.mem_append, Option.mem_toList, Option.map_eq_some_iff] at hs
  rcases hs with (hs | ⟨n, -, rfl⟩) | ⟨n, -, rfl⟩
  · split_ifs at hs
    · cases hs
    · obtain rfl := List.mem_singleton.mp hs
      exact t.unmarked
  · trivial
  · trivial

mutual

theorem QueryTree.segments_fit (hd : d.Separates) (q : QueryTree d) : ∀ s ∈ q.segments, s.Fits := by
  match q with
  | .select _ tail => exact tail.segments_fit
  | .compound chain tail =>
    exact List.forall_mem_append.mpr ⟨chain.segments_fit hd, tail.segments_fit⟩

theorem QueryChain.segments_fit (hd : d.Separates) (c : QueryChain d) :
    ∀ s ∈ c.segments, s.Fits := by
  match c with
  | .first q => exact q.segments_fit hd
  | .combine chain o all q =>
    have hhead : (Segment.combine o all q.head).Fits := q.head_fits hd
    exact List.forall_mem_append.mpr
      ⟨chain.segments_fit hd, List.forall_mem_cons.mpr ⟨hhead, q.segments_fit hd⟩⟩

end

/-- A count after its keyword. -/
theorem Phrase.follows_count (hd : d.Separates) {w : String} (hw : IsWord w) {n : Option Nat}
    {segment : Nat → Segment}
    (hsegment : ∀ n, (segment n).nodes = [.word w, .word (toString n)]) :
    Follows d (count (" " ++ w ++ " ") n)
      ((n.map fun n => segment (cappedCount n)).toList.flatMap Segment.nodes) := by
  cases n with
  | none => exact follows_nil d
  | some n =>
    have hlead : " " ++ w ++ " " = leadText [w] := rfl
    have hnodes : [segment (cappedCount n)].flatMap Segment.nodes =
        [w].map .word ++ [.word (toString (cappedCount n))] := by
      rw [List.flatMap_singleton, hsegment]
      rfl
    rw [count, hlead, Option.map_some, Option.toList_some, hnodes]
    exact (readsAs_digits _).after hd (List.forall_mem_singleton.mpr hw)

/-- The order after its keywords. -/
theorem QueryTail.follows_orderBy (hd : d.Separates) (t : QueryTail d) :
    Phrase.Follows d (Phrase.orderBy t.orderBy)
      ((if t.orderBy.isEmpty then [] else [Segment.order t.items]).flatMap Segment.nodes) := by
  have hreads := t.reads
  have hwrite := Clause.write_orderBy d t.orderBy
  cases h : t.orderBy with
  | nil => exact Phrase.follows_nil d
  | cons o items =>
    rw [h] at hreads hwrite
    have hwords : ∀ w ∈ ["ORDER", "BY"], IsWord w := by decide
    have hnodes : ["ORDER", "BY"].map .word ++ t.items =
        [Segment.order t.items].flatMap Segment.nodes := by
      rw [List.flatMap_singleton]
      rfl
    obtain ⟨s, hs, hapart, hns⟩ := (Phrase.readsAs_content hreads).after hd hwords
    exact ⟨s, hwrite ▸ hs, hapart, hnodes ▸ hns⟩

theorem QueryTail.follows (hd : d.Separates) (t : QueryTail d) :
    Phrase.Follows d t.phrases (t.segments.flatMap Segment.nodes) := by
  have hlimit : IsWord "LIMIT" := by decide
  have hoffset : IsWord "OFFSET" := by decide
  rw [phrases, segments, List.flatMap_append, List.flatMap_append]
  exact ((t.follows_orderBy hd).append hd (Phrase.follows_count hd hlimit fun _ => rfl)).append hd
    (Phrase.follows_count hd hoffset fun _ => rfl)

theorem Combination.isWord_words (o : Combination) (all : Bool) : ∀ w ∈ o.words all, IsWord w := by
  cases o <;> cases all <;> decide

theorem Combination.map_words (o : Combination) (all : Bool) (ns : List Node) :
    (o.words all).map .word ++ ns = (Segment.combine o all ns).nodes := by
  cases all <;> rfl

mutual

/-- **The text of a tree is read as its first query and its segments.** -/
theorem QueryTree.readsAs (hd : d.Separates) (q : QueryTree d) :
    Phrase.ReadsAs d q.phrases (q.head ++ q.segments.flatMap Segment.nodes) := by
  match q with
  | .select core tail =>
    obtain ⟨s, hs, hns⟩ := core.reads
    have hcore : Phrase.ReadsAs d core.query.phrases core.nodes :=
      ⟨s, by rw [← Select.compile_eq, hs], hns⟩
    exact hcore.append hd (tail.follows hd)
  | .compound chain tail =>
    rw [QueryTree.phrases, QueryTree.head, QueryTree.segments, List.flatMap_append,
      ← List.append_assoc]
    exact (chain.readsAs hd).append hd (tail.follows hd)

/-- The text of a chain is read as its first query and its segments. -/
theorem QueryChain.readsAs (hd : d.Separates) (c : QueryChain d) :
    Phrase.ReadsAs d c.phrases (c.head ++ c.segments.flatMap Segment.nodes) := by
  match c with
  | .first q => exact q.readsAs hd
  | .combine chain o all q =>
    have hoperand := (q.readsAs hd).after hd (o.isWord_words all)
    rw [← List.append_assoc, o.map_words all] at hoperand
    rw [QueryChain.phrases, QueryChain.head, QueryChain.segments, List.flatMap_append,
      List.flatMap_cons, ← List.append_assoc]
    exact (chain.readsAs hd).append hd hoperand

end

/-- **A text determines the first query and the segments**, whatever tree it is written for. -/
theorem QueryTree.segments_of_compile_eq (hd : d.Separates) {q r : QueryTree d}
    (h : q.toValue.compile d = r.toValue.compile d) :
    q.head = r.head ∧ q.segments = r.segments := by
  obtain ⟨s, hs, hns⟩ := q.readsAs hd
  obtain ⟨t, ht, hms⟩ := r.readsAs hd
  rw [QueryTree.compile_eq, QueryTree.compile_eq, hs, ht] at h
  obtain rfl := Except.ok.inj h
  rw [hns] at hms
  exact segments_unique (q.head_fits hd).1 (r.head_fits hd).1 (q.segments_fit hd)
    (r.segments_fit hd) (Option.some.inj hms)

end PortableSql
