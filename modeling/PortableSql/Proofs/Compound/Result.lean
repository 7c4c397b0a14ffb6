import PortableSql.Proofs.Compound.Rows
import PortableSql.Proofs.Compound.Table

/-!
# Results of queries of queries

Nested queries are written without parentheses, so that trees with different results may have the
same text. They have the same result where the segments, one after another, do what the tree does.

* **`Database`**, **`QueryTree.result`**: the rows of a tree, of which every operator combines the
  operands that it has, and every clause belongs to one query.
* `Segment.replay`: segments one after another.
* **`QueryTree.isFlat`**, **`QueryTree.result_eq_replay`**: trees whose segments do what they do.
* **`QueryTree.result_of_compile_eq`**: trees with the same text.
-/

namespace PortableSql

/-- **What the text of queries stands for**: the rows of every query without an order and limits,
and how rows are put in an order. -/
structure Database (Row : Type) where
  rows : List Node → List Row
  sort : List Node → List Row → List Row

variable {d : Dialect} {Row : Type} [DecidableEq Row] (db : Database Row)

/-! ## Results -/

/-- The rows that the order and the limits leave; the offset comes before the limit. -/
def QueryTail.result (t : QueryTail d) (rs : List Row) : List Row :=
  let sorted := if t.orderBy.isEmpty then rs else db.sort t.items rs
  let rest := (t.offset.map fun n => sorted.drop (cappedCount n)).getD sorted
  (t.limit.map fun n => rest.take (cappedCount n)).getD rest

mutual

/-- **The result of a tree.** -/
def QueryTree.result : QueryTree d → List Row
  | .select core tail => tail.result db (db.rows core.nodes)
  | .compound chain tail => tail.result db chain.result

/-- The result of a chain. -/
def QueryChain.result : QueryChain d → List Row
  | .first q => q.result
  | .combine chain o all q => o.rows all chain.result q.result

end

namespace Segment

/-! ## Segments one after another -/

/-- The rows after a segment. -/
def apply (rs : List Row) : Segment → List Row
  | combine o all query => o.rows all rs (db.rows query)
  | order items => db.sort items rs
  | limit n => rs.take n
  | offset n => rs.drop n

/-- **The rows after segments**; a limit and the offset after it belong together. -/
def replay (rs : List Row) : List Segment → List Row
  | [] => rs
  | limit n :: offset m :: ss => replay ((rs.drop m).take n) ss
  | s :: ss => replay (s.apply db rs) ss

/-- The segment is a limit. -/
def isLimit : Segment → Bool
  | limit _ => true
  | _ => false

/-- The segment is an offset. -/
def isOffset : Segment → Bool
  | offset _ => true
  | _ => false

/-- A limit ends the former and an offset starts the latter. -/
def meet (ss ts : List Segment) : Bool := ss.getLast?.any isLimit && ts.head?.any isOffset

theorem replay_cons {s : Segment} {ss : List Segment} (h : meet [s] ss = false) (rs : List Row) :
    replay db rs (s :: ss) = replay db (s.apply db rs) ss := by
  rw [replay]
  rintro n m ts rfl rfl
  cases h

theorem replay_append {ss ts : List Segment} (h : meet ss ts = false) (rs : List Row) :
    replay db rs (ss ++ ts) = replay db (replay db rs ss) ts := by
  fun_induction replay db rs ss with
  | case1 rs => rfl
  | case2 rs n m ss ih =>
    have hss : meet ss ts = false := by
      cases ss with
      | nil => rfl
      | cons s ss => exact h
    exact ih hss
  | case3 rs s ss hne ih =>
    have hss : meet ss ts = false := by
      cases ss with
      | nil => rfl
      | cons t ss => exact h
    have hs : meet [s] (ss ++ ts) = false := by
      cases ss with
      | nil => exact h
      | cons t ss =>
        cases s <;> cases t <;> first | rfl | exact (hne _ _ _ rfl rfl).elim
    rw [List.cons_append, replay_cons db hs, ih hss]

/-- The segment adds a query with this operator. -/
def repeats (o : Combination) (all : Bool) : Segment → Bool
  | combine o' all' _ => o' = o && all' = all
  | _ => false

/-- An associative operator that is repeated may be left for later. -/
theorem replay_rows {o : Combination} (ho : o ≠ .except) {all : Bool} {ss : List Segment}
    (h : ∀ s ∈ ss, s.repeats o all = true) (as bs : List Row) :
    replay db (o.rows all as bs) ss = o.rows all as (replay db bs ss) := by
  induction ss generalizing bs with
  | nil => rfl
  | cons s ss ih =>
    obtain ⟨hs, hss⟩ := List.forall_mem_cons.mp h
    cases s with
    | combine o' all' query =>
      obtain ⟨ho', hall'⟩ := Bool.and_eq_true_iff.mp hs
      obtain rfl := of_decide_eq_true ho'
      obtain rfl := of_decide_eq_true hall'
      rw [replay_cons db rfl, replay_cons db rfl, apply, apply, Combination.rows_assoc ho, ih hss]
    | order items => cases hs
    | limit n => cases hs
    | offset n => cases hs

end Segment

theorem QueryTail.replay_segments (t : QueryTail d) (rs : List Row) :
    Segment.replay db rs t.segments = t.result db rs := by
  rw [segments, result]
  cases t.orderBy.isEmpty <;> cases t.limit <;> cases t.offset <;> rfl

/-! ## Trees whose segments do what they do -/

mutual

/-- **The segments of the tree do what it does**: a further query is one `SELECT`, or a chain with
the operator before it, which is associative; and no offset takes a limit within for its own. -/
def QueryTree.isFlat : QueryTree d → Bool
  | .select _ _ => true
  | .compound chain tail => chain.isFlat && !Segment.meet chain.segments tail.segments

/-- The segments of the chain do what it does. -/
def QueryChain.isFlat : QueryChain d → Bool
  | .first q => q.isFlat
  | .combine chain o all q => chain.isFlat && q.isFlat &&
    (q.segments.isEmpty || o ≠ .except && q.segments.all (·.repeats o all))

end

mutual

/-- **The result of a flat tree is that of its segments**, one after another. -/
theorem QueryTree.result_eq_replay {q : QueryTree d} (h : q.isFlat = true) :
    q.result db = Segment.replay db (db.rows q.head) q.segments := by
  match q with
  | .select core tail => exact (tail.replay_segments db _).symm
  | .compound chain tail =>
    obtain ⟨hchain, hmeet⟩ := Bool.and_eq_true_iff.mp h
    rw [QueryTree.segments, Segment.replay_append db (Bool.not_eq_true' _ ▸ hmeet),
      QueryTree.head, ← chain.result_eq_replay hchain, tail.replay_segments]
    rfl

/-- The result of a flat chain is that of its segments, one after another. -/
theorem QueryChain.result_eq_replay {c : QueryChain d} (h : c.isFlat = true) :
    c.result db = Segment.replay db (db.rows c.head) c.segments := by
  match c with
  | .first q => exact q.result_eq_replay h
  | .combine chain o all q =>
    obtain ⟨hboth, hoperand⟩ := Bool.and_eq_true_iff.mp h
    obtain ⟨hchain, hq⟩ := Bool.and_eq_true_iff.mp hboth
    have hmeet : Segment.meet chain.segments (.combine o all q.head :: q.segments) = false :=
      Bool.and_false _
    have hrows := q.result_eq_replay hq
    rw [QueryChain.segments, Segment.replay_append db hmeet, Segment.replay_cons db rfl,
      Segment.apply, QueryChain.head, ← chain.result_eq_replay hchain]
    rcases Bool.or_eq_true_iff.mp hoperand with hnone | hrepeats
    · -- a query without segments is its first one
      rw [List.isEmpty_iff.mp hnone] at hrows ⊢
      rw [QueryChain.result, hrows, Segment.replay, Segment.replay]
    · obtain ⟨ho, hall⟩ := Bool.and_eq_true_iff.mp hrepeats
      rw [Segment.replay_rows db (of_decide_eq_true ho) (List.all_eq_true.mp hall),
        QueryChain.result, hrows]

end

/-- **Trees with the same text have the same first query and the same segments, and flat ones have
the same result**, whatever the rows are. -/
theorem QueryTree.result_of_compile_eq (hd : d.Separates) {q r : QueryTree d}
    (h : q.toValue.compile d = r.toValue.compile d) :
    q.head = r.head ∧ q.segments = r.segments ∧
      (q.isFlat = true → r.isFlat = true → ∀ {Row : Type} [DecidableEq Row] (db : Database Row),
        q.result db = r.result db) := by
  obtain ⟨hhead, hsegments⟩ := segments_of_compile_eq hd h
  refine ⟨hhead, hsegments, fun hq hr _ _ db => ?_⟩
  rw [result_eq_replay db hq, result_eq_replay db hr, hhead, hsegments]

/-- A union in a union, after a difference that is limited on its own, over tables, and over columns
of the rows that pass a filter, whose names and texts hold keywords. -/
theorem QueryTree.result_of_compile_eq_nested :
    let e := Engine.postgres
    let a : QueryTree (.builtin e) :=
      .select (.table e "a") (.byColumn e "LIMIT" (by decide) .descending (some 2) (some 1))
    let listed : QueryFilter (.builtin e) :=
      .test e "id" (.membership "NOT IN" ["' UNION", "3"]) (by decide) (by decide)
    let between : QueryFilter (.builtin e) :=
      .test e "OFFSET" (.range "BETWEEN" "1" "LIMIT") (by decide) (by decide)
    let b : QueryTree (.builtin e) := .select
      (.filtered e ["id", "\" FROM"] (by decide) (by decide) "b UNION c" listed)
      (.unordered none none)
    let c : QueryTree (.builtin e) := .select
      (.filtered e ["name"] (by decide) (by decide) "\" ORDER BY" between) (.unordered none none)
    let difference : QueryTree (.builtin e) :=
      .compound (.combine (.first a) .except true b) (.unordered (some 5) none)
    let tail : QueryTail (.builtin e) := .byColumn e "name" (by decide) .ascending none (some 3)
    let q : QueryTree (.builtin e) := .compound (.combine (.first difference) .union false
      (.compound (.combine (.first b) .union false c) (.unordered none none))) tail
    let r : QueryTree (.builtin e) := .compound (.combine (.combine
      (.first (.compound (.first difference) (.unordered none none))) .union false b)
        .union false c) tail
    (Dialect.builtin e).Separates ∧
      q.toValue.compile (.builtin e) = r.toValue.compile (.builtin e) ∧
      q.isFlat = true ∧ r.isFlat = true ∧
      ∀ {Row : Type} [DecidableEq Row] (db : Database Row), q.result db = r.result db := by
  intro e a listed between b c difference tail q r
  have hd := e.separates
  have htext : q.toValue.compile (.builtin e) = r.toValue.compile (.builtin e) := by
    have hnone : (QueryTail.unordered none none : QueryTail (.builtin e)).phrases = [] := rfl
    rw [QueryTree.compile_eq, QueryTree.compile_eq]
    simp only [q, r, QueryTree.phrases, QueryChain.phrases, hnone, List.append_nil,
      List.append_assoc, List.cons_append]
  have hq : q.isFlat = true := rfl
  have hr : r.isFlat = true := rfl
  obtain ⟨-, -, hsame⟩ := QueryTree.result_of_compile_eq hd htext
  exact ⟨hd, htext, hq, hr, hsame hq hr⟩

/-- **Without parentheses it is lost what an operator combines, and which query a clause is of**: a
difference in a union, a limit of the last query in a union, and an offset after a limit within. -/
theorem QueryTree.same_text_other_result :
    let d : Dialect := .builtin .generic
    let table name limit offset : QueryTree d :=
      .select (.table .generic name) (.unordered limit offset)
    let a := table "a" none none
    let b := table "b" none none
    let nested (chain : QueryChain d) limit offset : QueryTree d :=
      .compound chain (.unordered limit offset)
    let db : Database Nat :=
      ⟨fun ns => if ns.getLast?.any (·.quotes "b") then [] else [1, 2], fun _ rs => rs⟩
    let differ (q r : QueryTree d) : Prop :=
      q.toValue.compile d = r.toValue.compile d ∧ q.result db ≠ r.result db
    differ
      (nested (.combine (.first a) .union false
        (nested (.combine (.first b) .except false a) none none)) none none)
      (nested (.combine (.combine (.first a) .union false b) .except false a) none none) ∧
    differ
      (nested (.combine (.first a) .union true (table "a" (some 1) none)) none none)
      (nested (.combine (.first a) .union true a) (some 1) none) ∧
    differ
      (nested (.first (table "a" (some 1) none)) none (some 1))
      (table "a" (some 1) (some 1)) := by
  intro d table a b nested db differ
  have htext {q r : QueryTree d} (h : q.phrases = r.phrases) :
      q.toValue.compile d = r.toValue.compile d := by
    rw [QueryTree.compile_eq, QueryTree.compile_eq, h]
  refine ⟨⟨htext ?_, by decide⟩, ⟨htext ?_, by decide⟩, ⟨htext ?_, by decide⟩⟩ <;>
    simp only [nested, table, a, b, QueryTree.phrases, QueryChain.phrases, QueryTail.phrases,
      QueryTail.unordered, Phrase.orderBy, Phrase.count, List.nil_append, List.append_nil,
      List.append_assoc, List.cons_append]

end PortableSql
