import PortableSql.Proofs.Reading.Keyword

/-!
# The clauses of a query

After its tables a query goes on in clauses, which are written in one order. Where no keyword stands
in them, the text after the tables tells which clauses there are and what they hold.

* **`ClauseKind`**, `ClauseKind.words`, `ClauseKind.all`: the clauses, their keywords and order.
* `Select.headPhrases`, `Select.content?`, `Select.phrases_eq`: a query, taken apart.
* **`Section`**, `Section.textAll`; `Select.sections`: a clause as it is written.
* **`Section.textAll_inj`**: the text of clear sections determines them.
* **`Select.Clear`**: queries whose texts hold no keyword; `Select.write_clausePhrases`.
* **`Select.AsksLike`**, `Select.Clear.asksLike_iff`: what the text before the tables tells.
* `Select.withClauses`, `Select.bare`: a query with the clauses of others, and without clauses.
-/

namespace PortableSql

/-! ## Kinds of clauses -/

/-- **A clause that a query may have after its tables.** -/
inductive ClauseKind where
  | filter | groupBy | having | orderBy | limit | offset
  deriving Repr, DecidableEq

namespace ClauseKind

/-- The keywords of the clause. -/
def words : ClauseKind → List String
  | filter => ["WHERE"]
  | groupBy => ["GROUP", "BY"]
  | having => ["HAVING"]
  | orderBy => ["ORDER", "BY"]
  | limit => ["LIMIT"]
  | offset => ["OFFSET"]

/-- All clauses, in the order in which they are written. -/
def all : List ClauseKind := [filter, groupBy, having, orderBy, limit, offset]

/-- The place of the clause in that order. -/
def rank : ClauseKind → Nat
  | filter => 0
  | groupBy => 1
  | having => 2
  | orderBy => 3
  | limit => 4
  | offset => 5

/-- The keywords of all clauses. -/
def keywords : List (List String) := all.map words

theorem mem_all (k : ClauseKind) : k ∈ all := by cases k <;> decide

theorem words_mem_keywords (k : ClauseKind) : k.words ∈ keywords := List.mem_map_of_mem (mem_all k)

theorem words_injective : ∀ k ∈ all, ∀ l ∈ all, k.words = l.words → k = l := by decide

theorem sharp_keywords : Sharp keywords := by decide

theorem pairwise_all : all.Pairwise fun k l => k.rank < l.rank := by decide

/-- What two functions find is joined, if the first one finds it before the other. -/
theorem filterMap_or {α : Type} {f g : ClauseKind → Option α} {ks : List ClauseKind}
    (hks : ks.Pairwise fun k l => k.rank < l.rank)
    (h : ∀ k ∈ ks, ∀ l ∈ ks, (f k).isSome → (g l).isSome → k.rank < l.rank) :
    ks.filterMap (fun k => (f k).or (g k)) = ks.filterMap f ++ ks.filterMap g := by
  induction ks with
  | nil => rfl
  | cons k ks ih =>
    obtain ⟨hk, hks⟩ := List.pairwise_cons.mp hks
    have hrest := ih hks fun k' hk' l hl =>
      h k' (List.mem_cons_of_mem k hk') l (List.mem_cons_of_mem k hl)
    rw [List.filterMap_cons, List.filterMap_cons, List.filterMap_cons, hrest]
    cases hg : g k with
    | none => cases f k <;> rfl
    | some b =>
      -- whatever the first one finds comes before this
      have hnone : ∀ l ∈ k :: ks, f l = none := by
        intro l hl
        by_contra hf
        have hlt := h l hl k List.mem_cons_self (Option.isSome_iff_ne_none.mpr hf) (by rw [hg]; rfl)
        rcases List.mem_cons.mp hl with rfl | hl
        · exact Nat.lt_irrefl _ hlt
        · exact Nat.lt_asymm (hk l hl) hlt
      have hf : ks.filterMap f = [] :=
        List.filterMap_eq_nil_iff.mpr fun l hl => hnone l (List.mem_cons_of_mem k hl)
      rw [hnone k List.mem_cons_self, hf]
      rfl

end ClauseKind

/-! ## Queries in parts -/

namespace Select

/-- What is written before the tables. -/
def headPhrases (q : Select) : List Phrase :=
  .keyword "SELECT " :: (if q.distinct then [.keyword "DISTINCT "] else [])
    ++ if q.columns.isEmpty then [.keyword "*"] else [.content (.sequence q.columns)]

/-- What is written for the columns: `*` if there are none. -/
def columnPhrases (q : Select) : List Phrase :=
  if q.columns.isEmpty then [.keyword "*"] else [.content (.sequence q.columns)]

theorem headPhrases_eq (q : Select) :
    q.headPhrases = .keyword "SELECT " ::
      ((if q.distinct then [.keyword "DISTINCT "] else []) ++ q.columnPhrases) := rfl

/-- What is written for conditions, unless they are empty. -/
def conditions? : Option Conditions → Option (List Phrase)
  | none => none
  | some c => if c.isEmpty then none else some [.content c.toValue]

/-- **What is written after the keywords of a clause**, if the query has it. -/
def content? (q : Select) : ClauseKind → Option (List Phrase)
  | .filter => conditions? q.filter
  | .groupBy => if q.groupBy = [] then none else some [.content (.sequence q.groupBy)]
  | .having => conditions? q.having
  | .orderBy =>
    if q.orderBy = [] then none else some (Phrase.commas (q.orderBy.map OrderItem.phrases))
  | .limit => q.limit.map fun n => [.keyword (toString (cappedCount n))]
  | .offset => q.offset.map fun n => [.keyword (toString (cappedCount n))]

/-- A clause with its keywords. -/
def clause (q : Select) (k : ClauseKind) : List Phrase :=
  match q.content? k with
  | none => []
  | some ps => .keyword (leadText k.words) :: ps

/-- What is written after the tables. -/
def clausePhrases (q : Select) : List Phrase := ClauseKind.all.flatMap q.clause

theorem phrases_conditions (lead : String) (c : Option Conditions) :
    Phrase.conditions lead c = match conditions? c with
      | none => []
      | some ps => .keyword lead :: ps := by
  cases c with
  | none => rfl
  | some c =>
    rw [Phrase.conditions_some]
    cases h : c.isEmpty <;> simp [conditions?, h]

/-- **A query is its head, its tables and its clauses.** -/
theorem phrases_eq (q : Select) :
    q.phrases = q.headPhrases ++ Phrase.optional " FROM " q.source ++ q.clausePhrases := by
  have hgroup : Phrase.list " GROUP BY " q.groupBy = q.clause .groupBy := by
    cases h : q.groupBy <;> simp [Phrase.list, clause, content?, h, ClauseKind.words, leadText]
  have horder : Phrase.orderBy q.orderBy = q.clause .orderBy := by
    cases h : q.orderBy <;> simp [Phrase.orderBy, clause, content?, h, ClauseKind.words, leadText]
  have hlimit : Phrase.count " LIMIT " q.limit = q.clause .limit := by
    cases h : q.limit <;> simp [Phrase.count, clause, content?, h, ClauseKind.words, leadText]
  have hoffset : Phrase.count " OFFSET " q.offset = q.clause .offset := by
    cases h : q.offset <;> simp [Phrase.count, clause, content?, h, ClauseKind.words, leadText]
  have hfilter : Phrase.conditions " WHERE " q.filter = q.clause .filter :=
    phrases_conditions _ q.filter
  have hhaving : Phrase.conditions " HAVING " q.having = q.clause .having :=
    phrases_conditions _ q.having
  rw [phrases, hgroup, horder, hlimit, hoffset, hfilter, hhaving]
  simp [headPhrases, clausePhrases, ClauseKind.all]

end Select

/-! ## Sections -/

/-- **A clause as it is written**: what it is, and the text after its keywords. -/
structure Section where
  kind : ClauseKind
  text : String
  deriving Repr, DecidableEq

namespace Section

/-- The clause is written before the other one in a query. -/
def Before (s t : Section) : Prop := s.kind.rank < t.kind.rank

instance (s t : Section) : Decidable (s.Before t) := inferInstanceAs (Decidable (_ < _))

theorem Before.trans {s t u : Section} (hst : s.Before t) (htu : t.Before u) : s.Before u :=
  Nat.lt_trans hst htu

/-- The text of sections in a row. -/
def textAll : List Section → String
  | [] => ""
  | s :: ss => leadText s.kind.words ++ s.text ++ textAll ss

theorem textAll_append (ss ts : List Section) :
    textAll (ss ++ ts) = textAll ss ++ textAll ts := by
  induction ss with
  | nil => exact String.empty_append.symm
  | cons s ss ih =>
    rw [List.cons_append, textAll, ih, textAll]
    simp only [String.append_assoc]

theorem led_textAll (ss : List Section) : Led ClauseKind.keywords (textAll ss) := by
  cases ss with
  | nil => exact .inl rfl
  | cons s ss =>
    exact .inr ⟨_, s.kind.words_mem_keywords, _, String.append_assoc ..⟩

/-- **The text of sections determines them**, if there is no keyword in them. -/
theorem textAll_inj {d : Dialect} (hd : d.Separates) {ss ts : List Section}
    (hs : ∀ s ∈ ss, d.Free ClauseKind.keywords s.text)
    (ht : ∀ t ∈ ts, d.Free ClauseKind.keywords t.text) (h : textAll ss = textAll ts) : ss = ts := by
  have hne (s : Section) (ss : List Section) : textAll (s :: ss) ≠ "" := by
    intro hempty
    have hlead := (String.append_eq_empty_iff.mp (String.append_eq_empty_iff.mp hempty).1).1
    rw [leadText_eq] at hlead
    exact absurd (String.append_eq_empty_iff.mp hlead).2 (by decide)
  induction ss generalizing ts with
  | nil =>
    cases ts with
    | nil => rfl
    | cons t ts => exact absurd h.symm (hne t ts)
  | cons s ss ih =>
    cases ts with
    | nil => exact absurd h (hne s ss)
    | cons t ts =>
      obtain ⟨hs, hss⟩ := List.forall_mem_cons.mp hs
      obtain ⟨ht, hts⟩ := List.forall_mem_cons.mp ht
      rw [textAll, textAll, String.append_assoc, String.append_assoc] at h
      obtain ⟨hwords, hrest⟩ := leadText_inj ClauseKind.sharp_keywords
        s.kind.words_mem_keywords t.kind.words_mem_keywords h
      obtain ⟨htext, hrest⟩ := hs.append_inj ClauseKind.sharp_keywords hd ht (led_textAll ss)
        (led_textAll ts) hrest
      have hkind := ClauseKind.words_injective _ s.kind.mem_all _ t.kind.mem_all hwords
      have hst : s = t := by
        cases s
        cases t
        simp_all
      rw [hst, ih hss hts hrest]

end Section

/-- The text of phrases that are written. -/
def Phrase.text (d : Dialect) (ps : List Phrase) : String :=
  match write (Value.compile d) ps with
  | .ok s => s
  | .error _ => ""

theorem Phrase.text_eq {d : Dialect} {ps : List Phrase} {s : String}
    (h : write (Value.compile d) ps = .ok s) : text d ps = s := by
  rw [text, h]

/-- **The phrases are written to a text without the keywords.** -/
def Phrase.Clear (d : Dialect) (keywords : List (List String)) (ps : List Phrase) : Prop :=
  ∃ s, write (Value.compile d) ps = .ok s ∧ d.Free keywords s

namespace Phrase.Clear

variable {d : Dialect} {keywords : List (List String)} {ps : List Phrase}

theorem write_eq (h : Phrase.Clear d keywords ps) :
    write (Value.compile d) ps = .ok (Phrase.text d ps) := by
  obtain ⟨s, hs, -⟩ := h
  rw [Phrase.text_eq hs, hs]

theorem free (h : Phrase.Clear d keywords ps) : d.Free keywords (Phrase.text d ps) := by
  obtain ⟨s, hs, hfree⟩ := h
  rwa [Phrase.text_eq hs]

end Phrase.Clear

namespace Select

/-- **The clauses of a query as they are written.** -/
def sections (d : Dialect) (q : Select) : List Section :=
  ClauseKind.all.filterMap fun k => (q.content? k).map fun ps => ⟨k, Phrase.text d ps⟩

/-- **The text of the query holds no keywords but its own**: before its tables there is no `FROM`,
and no clause begins in another one. -/
structure Clear (d : Dialect) (q : Select) : Prop where
  head : Phrase.Clear d [["FROM"]] q.headPhrases
  clauses : ∀ k, ∀ ps ∈ q.content? k, Phrase.Clear d ClauseKind.keywords ps

variable {d : Dialect} {q : Select}

theorem pairwise_sections (d : Dialect) (q : Select) :
    (q.sections d).Pairwise Section.Before := by
  refine List.Pairwise.filterMap _ (fun k l hkl s hs t ht => ?_) ClauseKind.pairwise_all
  obtain ⟨ps, -, rfl⟩ := Option.map_eq_some_iff.mp hs
  obtain ⟨qs, -, rfl⟩ := Option.map_eq_some_iff.mp ht
  exact hkl

theorem Clear.free_sections (h : q.Clear d) :
    ∀ s ∈ q.sections d, d.Free ClauseKind.keywords s.text := by
  intro s hs
  obtain ⟨k, -, hk⟩ := List.mem_filterMap.mp hs
  obtain ⟨ps, hps, rfl⟩ := Option.map_eq_some_iff.mp hk
  exact (h.clauses k ps hps).free

/-- **The clauses are written as the sections.** -/
theorem Clear.write_clausePhrases (h : q.Clear d) :
    Phrase.write (Value.compile d) q.clausePhrases = .ok (Section.textAll (q.sections d)) := by
  rw [clausePhrases, sections]
  -- the order of the kinds plays no part
  generalize ClauseKind.all = ks
  induction ks with
  | nil => rfl
  | cons k ks ih =>
    rw [List.flatMap_cons, List.filterMap_cons, clause]
    cases hk : q.content? k with
    | none => exact ih
    | some ps =>
      have hclause := Phrase.write_keyword_of_ok (leadText k.words) (h.clauses k ps hk).write_eq
      exact Phrase.write_append_of_ok hclause ih

/-! ## Heads -/

/-- **Two queries ask for the same**: for columns of one text, where either both drop duplicates or
none does; or the text of the columns of one begins with the `DISTINCT` that the other one has by
itself. -/
inductive AsksLike (d : Dialect) (q r : Select) : Prop where
  | same (hdistinct : q.distinct = r.distinct)
      (hcolumns : Phrase.text d q.columnPhrases = Phrase.text d r.columnPhrases)
  | left (hq : q.distinct = true) (hr : r.distinct = false)
      (hcolumns : Phrase.text d r.columnPhrases = "DISTINCT " ++ Phrase.text d q.columnPhrases)
  | right (hq : q.distinct = false) (hr : r.distinct = true)
      (hcolumns : Phrase.text d q.columnPhrases = "DISTINCT " ++ Phrase.text d r.columnPhrases)

theorem Clear.text_head (h : q.Clear d) :
    Phrase.text d q.headPhrases =
      "SELECT " ++ ((if q.distinct then "DISTINCT " else "") ++ Phrase.text d q.columnPhrases) := by
  have hwrite := h.head.write_eq
  rw [headPhrases_eq] at hwrite
  obtain ⟨s, hs, htext⟩ := Phrase.write_keyword_eq_ok hwrite
  rw [headPhrases_eq, htext]
  cases hdistinct : q.distinct with
  | false =>
    have hcolumns : Phrase.write (Value.compile d) q.columnPhrases = .ok s := by
      rwa [hdistinct] at hs
    rw [Phrase.text_eq hcolumns, if_neg Bool.false_ne_true, String.empty_append]
  | true =>
    rw [hdistinct] at hs
    obtain ⟨t, hcolumns, rfl⟩ := Phrase.write_keyword_eq_ok hs
    change Phrase.write (Value.compile d) q.columnPhrases = .ok t at hcolumns
    rw [Phrase.text_eq hcolumns, if_pos rfl]

/-- **What stands before the tables of two clear queries is the same exactly if they ask for the
same.** -/
theorem Clear.asksLike_iff {r : Select} (hq : q.Clear d) (hr : r.Clear d) :
    Phrase.text d q.headPhrases = Phrase.text d r.headPhrases ↔ q.AsksLike d r := by
  rw [hq.text_head, hr.text_head, String.append_right_inj]
  constructor
  · intro h
    cases hdq : q.distinct <;> cases hdr : r.distinct <;>
      simp only [hdq, hdr, Bool.false_eq_true, if_true, if_false, String.empty_append,
        String.append_right_inj] at h
    · exact .same (hdq.trans hdr.symm) h
    · exact .right hdq hdr h
    · exact .left hdq hdr h.symm
    · exact .same (hdq.trans hdr.symm) h
  · rintro (⟨hdistinct, hcolumns⟩ | ⟨hdq, hdr, hcolumns⟩ | ⟨hdq, hdr, hcolumns⟩)
    · rw [hdistinct, hcolumns]
    · rw [hdq, hdr, hcolumns, if_pos rfl, if_neg Bool.false_ne_true, String.empty_append]
    · rw [hdq, hdr, hcolumns, if_pos rfl, if_neg Bool.false_ne_true, String.empty_append]

/-- A raw column may bring the keyword along. -/
example :
    let d : Dialect := .builtin .generic
    let raw (s : String) : Value := .expression (.raw s)
    ({ columns := [raw "DISTINCT a"] } : Select).toValue.compile d =
      ({ distinct := true, columns := [raw "a"] } : Select).toValue.compile d := by
  decide

/-! ## Clauses of others -/

/-- **The query with other clauses**: those of `p`, and those of `r` that `p` does not have. -/
def withClauses (q p r : Select) : Select :=
  { q with
    filter := if conditions? p.filter = none then r.filter else p.filter
    groupBy := if p.groupBy = [] then r.groupBy else p.groupBy
    having := if conditions? p.having = none then r.having else p.having
    orderBy := if p.orderBy = [] then r.orderBy else p.orderBy
    limit := p.limit.or r.limit
    offset := p.offset.or r.offset }

theorem conditions?_ite (a b : Option Conditions) :
    conditions? (if conditions? a = none then b else a) = (conditions? a).or (conditions? b) := by
  by_cases h : conditions? a = none
  · rw [if_pos h, h, Option.none_or]
  · obtain ⟨ps, hps⟩ := Option.ne_none_iff_exists'.mp h
    rw [if_neg h, hps, Option.some_or]

theorem content?_withClauses (q p r : Select) (k : ClauseKind) :
    (q.withClauses p r).content? k = (p.content? k).or (r.content? k) := by
  cases k with
  | filter => exact conditions?_ite p.filter r.filter
  | having => exact conditions?_ite p.having r.having
  | groupBy => by_cases h : p.groupBy = [] <;> simp [content?, withClauses, h]
  | orderBy => by_cases h : p.orderBy = [] <;> simp [content?, withClauses, h]
  | limit => cases h : p.limit <;> simp [content?, withClauses, h]
  | offset => cases h : p.offset <;> simp [content?, withClauses, h]

theorem Clear.withClauses (hq : q.Clear d) {p r : Select}
    (hp : ∀ k, ∀ ps ∈ p.content? k, Phrase.Clear d ClauseKind.keywords ps)
    (hr : ∀ k, ∀ ps ∈ r.content? k, Phrase.Clear d ClauseKind.keywords ps) :
    (q.withClauses p r).Clear d where
  head := hq.head
  clauses k ps hps := by
    rw [content?_withClauses, Option.mem_def, Option.or_eq_some_iff] at hps
    rcases hps with h | ⟨-, h⟩
    · exact hp k ps h
    · exact hr k ps h

/-- The query without clauses. -/
def bare (q : Select) : Select := q.withClauses {} {}

theorem Clear.bare (hq : q.Clear d) : q.bare.Clear d := by
  have hnone (k : ClauseKind) : ({} : Select).content? k = none := by cases k <;> rfl
  refine hq.withClauses ?_ ?_ <;>
  · intro k ps hps
    rw [hnone] at hps
    cases hps

theorem sections_bare (d : Dialect) (q : Select) : q.bare.sections d = [] := rfl

/-- **Clauses in order are joined.** -/
theorem sections_withClauses (d : Dialect) (q : Select) {p r : Select}
    (h : ∀ s ∈ p.sections d, ∀ t ∈ r.sections d, s.Before t) :
    (q.withClauses p r).sections d = p.sections d ++ r.sections d := by
  rw [sections, sections, sections, ← ClauseKind.filterMap_or ClauseKind.pairwise_all]
  · simp only [content?_withClauses, Option.map_or]
  · intro k hk l hl hf hg
    obtain ⟨s, hs⟩ := Option.isSome_iff_exists.mp hf
    obtain ⟨t, ht⟩ := Option.isSome_iff_exists.mp hg
    have hlt := h s (List.mem_filterMap.mpr ⟨k, hk, hs⟩) t (List.mem_filterMap.mpr ⟨l, hl, ht⟩)
    obtain ⟨ps, -, rfl⟩ := Option.map_eq_some_iff.mp hs
    obtain ⟨qs, -, rfl⟩ := Option.map_eq_some_iff.mp ht
    exact hlt

end Select

end PortableSql
