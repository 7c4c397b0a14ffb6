import PortableSql.Proofs.Render.Follow
import PortableSql.Proofs.Render.Outcome

/-!
# Wrapped dialects

Connections and prefixes are wrapped around an engine. What counts in the end are the engine, the
quotes and the table prefix, and the quotes count for names only.

* **`Value.render_congr`**: dialects with the same engine, quotes and table prefix render alike.
* `Draft.ofLeaves`: leaves one after another.
* `Uniform`: a walk that writes the same leaves in every dialect; each step of a walk keeps it.
* **`Value.uniform_walk`**: the walk through a value writes the same leaves in every dialect.
* **`Value.render_wrapped`**: wrappers are transparent, and quotes change names only.
-/

namespace PortableSql

/-! ## What a dialect is read through -/

namespace Dialect

variable {d e : Dialect}

/-- Literals are quoted as the engine does. -/
theorem quoteEach_eq_builtin (d : Dialect) (ls : List Literal) :
    d.quoteEach ls = (builtin d.engine).quoteEach ls := by
  induction ls with
  | nil => rfl
  | cons l ls ih =>
    have hl : d.quoteLiteral l = (builtin d.engine).quoteLiteral l := by cases l <;> rfl
    rw [quoteEach, quoteEach, hl, ih]

theorem quote_congr (hquotes : d.quotes = e.quotes) : d.quote = e.quote := by
  funext s
  rw [quote, quote, hquotes]

theorem quoteTable_congr (hquotes : d.quotes = e.quotes) (htable : d.tablePrefix = e.tablePrefix) :
    d.quoteTable = e.quoteTable := by
  funext base
  rw [quoteTable, quoteTable, quote_congr hquotes, htable]

theorem qualifierText_congr (hquotes : d.quotes = e.quotes)
    (htable : d.tablePrefix = e.tablePrefix) (outer : Qualifier) :
    d.qualifierText outer = e.qualifierText outer := by
  induction outer with
  | none => rfl
  | segments parts => rw [qualifierText, qualifierText, quote_congr hquotes]
  | identifier base outer ih => rw [qualifierText, qualifierText, ih, quote_congr hquotes]
  | table base outer ih => rw [qualifierText, qualifierText, ih, quoteTable_congr hquotes htable]

theorem draft_congr (hquotes : d.quotes = e.quotes) (htable : d.tablePrefix = e.tablePrefix)
    (x : Leaf) : x.draft d = x.draft e := by
  have hqualifier := qualifierText_congr hquotes htable
  cases x with
  | literal l => rfl
  | identifier n =>
    rw [Leaf.draft, identifierText, hqualifier, quote_congr hquotes]
    rfl
  | column n =>
    rw [Leaf.draft, columnText, hqualifier, quote_congr hquotes]
    rfl
  | table n =>
    rw [Leaf.draft, tableText, hqualifier, quoteTable_congr hquotes htable]
    rfl
  | raw sql => rfl

end Dialect

/-- **Dialects with the same engine, quotes and table prefix render every value alike.** -/
theorem Value.render_congr {d e : Dialect} (hengine : d.engine = e.engine)
    (hquotes : d.quotes = e.quotes) (htable : d.tablePrefix = e.tablePrefix) (v : Value) :
    v.compile d = v.compile e ∧ v.prepare d = v.prepare e := by
  have hwalk : v.walk d = v.walk e := walk_congr fun x _ => Dialect.draft_congr hquotes htable x
  have hmarks : d.placeholders = e.placeholders := by
    funext bound n
    rw [Dialect.placeholders, Dialect.placeholders]
    exact List.map_congr_left fun position _ => congrArg (·.placeholder position) hengine
  constructor
  · rw [compile_eq, compile_eq, hwalk, d.quoteEach_eq_builtin, hengine, ← e.quoteEach_eq_builtin]
  · rw [prepare_eq, prepare_eq, hwalk, hmarks]

/-! ## Leaves one after another -/

/-- The draft of leaves one after another. -/
def Draft.ofLeaves (d : Dialect) : List Leaf → Draft
  | [] => .nil
  | x :: xs => x.draft d ++ ofLeaves d xs

/-- The leaf is written as the empty text; names never are. -/
def Leaf.isBlank : Leaf → Bool
  | .raw sql => sql = ""
  | _ => false

namespace Draft

theorem ofLeaves_append (d : Dialect) (xs ys : List Leaf) :
    ofLeaves d (xs ++ ys) = ofLeaves d xs ++ ofLeaves d ys := by
  induction xs with
  | nil => rfl
  | cons x xs ih =>
    rw [List.cons_append, ofLeaves, ofLeaves, ih]
    cases x <;> rfl

theorem literals_ofLeaves (d : Dialect) (xs : List Leaf) :
    (ofLeaves d xs).literals = xs.filterMap Leaf.literal? := by
  induction xs with
  | nil => rfl
  | cons x xs ih =>
    rw [ofLeaves, literals_append, ih]
    cases x <;> rfl

theorem isBlank_draft_append (d : Dialect) (x : Leaf) (t : Draft) :
    (x.draft d ++ t).isBlank = (x.isBlank && t.isBlank) := by
  have hname {s : String} (hs : s ≠ "") : (text s t).isBlank = (false && t.isBlank) :=
    congrArg (· && t.isBlank) (decide_eq_false hs)
  cases x with
  | literal l => rfl
  | identifier n => exact hname (d.identifierText_ne_empty n)
  | column n => exact hname (d.columnText_ne_empty n)
  | table n => exact hname (d.tableText_ne_empty n)
  | raw sql => rfl

/-- Whether leaves are written as the empty text does not depend on the dialect. -/
theorem isBlank_ofLeaves (d : Dialect) (xs : List Leaf) :
    (ofLeaves d xs).isBlank = xs.all Leaf.isBlank := by
  induction xs with
  | nil => rfl
  | cons x xs ih => rw [ofLeaves, isBlank_draft_append, ih, List.all_cons]

theorem exists_join (separator : String) (xss : List (List Leaf)) :
    ∃ xs, ∀ d, join separator (xss.map (ofLeaves d)) = ofLeaves d xs := by
  induction xss with
  | nil => exact ⟨[], fun _ => rfl⟩
  | cons xs xss ih =>
    obtain ⟨ys, hys⟩ := ih
    cases xss with
    | nil => exact ⟨xs, fun _ => rfl⟩
    | cons zs xss =>
      refine ⟨xs ++ .raw separator :: ys, fun d => ?_⟩
      rw [ofLeaves_append, ofLeaves, ← hys]
      rfl

theorem exists_joinFilled (separator : String) (xss : List (List Leaf)) :
    ∃ xs, ∀ d, joinFilled separator (xss.map (ofLeaves d)) = ofLeaves d xs := by
  obtain ⟨xs, hxs⟩ := exists_join separator (xss.filter fun xs => !xs.all Leaf.isBlank)
  refine ⟨xs, fun d => ?_⟩
  rw [joinFilled, List.filter_map, ← hxs]
  congr 2
  exact List.filter_congr fun xs _ => congrArg (!·) (isBlank_ofLeaves d xs)

end Draft

/-! ## Walks that write the same leaves -/

/-- **The walk writes the same leaves in every dialect** and stops in the same way. -/
def Uniform (w : Dialect → Walk) : Prop := ∃ xs stop, ∀ d, w d = ⟨.ofLeaves d xs, stop⟩

theorem uniform_leaf (x : Leaf) : Uniform fun d => ⟨x.draft d, none⟩ :=
  ⟨[x], none, fun d => by cases x <;> rfl⟩

theorem uniform_text (s : String) : Uniform fun _ => .text s := uniform_leaf (.raw s)

theorem uniform_halt (e : RenderError) : Uniform fun _ => .halt e := ⟨[], some e, fun _ => rfl⟩

theorem Uniform.andThen {w k : Dialect → Walk} (hw : Uniform w) (hk : Uniform k) :
    Uniform fun d => (w d).andThen (k d) := by
  obtain ⟨xs, stop, hxs⟩ := hw
  obtain ⟨ys, stop', hys⟩ := hk
  cases stop with
  | none =>
    refine ⟨xs ++ ys, stop', fun d => ?_⟩
    simp only [hxs, hys, Draft.ofLeaves_append]
    rfl
  | some e =>
    refine ⟨xs, some e, fun d => ?_⟩
    simp only [hxs]
    rfl

section

variable {g : Dialect → Value → Walk}

theorem uniform_fillFrom (template : String) {named : List (String × Value)}
    (hn : ∀ p ∈ named, Uniform fun d => g d p.2) (ps : List Piece) (used : Nat)
    (left : List Value) (hl : ∀ v ∈ left, Uniform fun d => g d v) :
    Uniform fun d =>
      Walk.fillFrom template (named.map fun p => (p.1, g d p.2)) ps used (left.map (g d)) := by
  induction ps generalizing used left with
  | nil =>
    cases left with
    | nil => exact ⟨[], none, fun _ => rfl⟩
    | cons v left =>
      simp only [Walk.fillFrom, List.map_cons, List.length_cons, List.length_map]
      exact uniform_halt _
  | cons p ps ih =>
    cases p with
    | text s => exact (uniform_text s).andThen (ih used left hl)
    | positional =>
      cases left with
      | nil => exact uniform_halt _
      | cons v left =>
        obtain ⟨hv, hl⟩ := List.forall_mem_cons.mp hl
        exact hv.andThen (ih (used + 1) left hl)
    | named token =>
      simp only [Walk.fillFrom, lookup_map_values]
      cases h : named.lookup token with
      | none => exact uniform_halt _
      | some v => exact (hn _ (mem_of_lookup h)).andThen (ih used left hl)

theorem exists_each {items : List Value} (h : ∀ v ∈ items, Uniform fun d => g d v) :
    ∃ (xss : List (List Leaf)) (stop : Option RenderError), ∀ d,
      Walk.each (items.map (g d)) = (xss.map (Draft.ofLeaves d), stop) := by
  induction items with
  | nil => exact ⟨[], none, fun _ => rfl⟩
  | cons v items ih =>
    obtain ⟨hv, hi⟩ := List.forall_mem_cons.mp h
    obtain ⟨xs, stop, hxs⟩ := hv
    obtain ⟨xss, stop', hxss⟩ := ih hi
    cases stop with
    | none =>
      refine ⟨xs :: xss, stop', fun d => ?_⟩
      simp only [List.map_cons, Walk.each, hxs, hxss]
    | some e =>
      refine ⟨[xs], some e, fun d => ?_⟩
      simp only [List.map_cons, List.map_nil, Walk.each, hxs]

theorem uniform_sequence {items : List Value} (h : ∀ v ∈ items, Uniform fun d => g d v) :
    Uniform fun d => .sequence (items.map (g d)) := by
  obtain ⟨xss, stop, hxss⟩ := exists_each h
  obtain ⟨xs, hxs⟩ := Draft.exists_joinFilled ", " xss
  refine ⟨xs, stop, fun d => ?_⟩
  simp only [Walk.sequence, hxss, hxs]

end

/-- **The walk through a value writes the same leaves in every dialect.** -/
theorem Value.uniform_walk (v : Value) : Uniform fun d => v.walk d := by
  induction v with
  | literal l => exact uniform_leaf (.literal l)
  | identifier n => exact uniform_leaf (.identifier n)
  | column n => exact uniform_leaf (.column n)
  | table n => exact uniform_leaf (.table n)
  | sequence items ih =>
    simp only [Value.walk_sequence]
    exact uniform_sequence ih
  | expression template positional named ihp ihn =>
    simp only [Value.walk_expression]
    split
    · exact uniform_text template
    · exact uniform_fillFrom template ihn _ 0 positional ihp

/-! ## Wrappers -/

/-- **Wrappers are transparent, and quotes change names only.** A connection of an engine, and a
prefix around it or around another prefix, render every value as the prefixed engine does. Whatever
the quotes of the connection are, a rendering consists of the same leaves, whose literals have the
texts and the placeholders that they have in the engine. -/
theorem Value.render_wrapped (e : Engine) (p q : String) (v : Value) :
    (∀ d ∈ [Dialect.configured ⟨e, p, none⟩, .prefixed (.configured ⟨e, q, none⟩) p,
        .prefixed (.prefixed (.builtin e) q) p],
      v.compile d = v.compile (.prefixed (.builtin e) p) ∧
        v.prepare d = v.prepare (.prefixed (.builtin e) p)) ∧
    ∃ (leaves : List Leaf) (stop : Option RenderError), ∀ quotes : Option Quotes,
      ∀ d ∈ [Dialect.configured ⟨e, p, quotes⟩, .prefixed (.configured ⟨e, q, quotes⟩) p],
        let literals := leaves.filterMap Leaf.literal?
        v.compile d = (do
          let marks ← (Dialect.builtin e).quoteEach literals
          match stop with
          | none => return (Draft.ofLeaves d leaves).write marks
          | some error => throw error) ∧
        v.prepare d = match stop with
          | none => .ok ⟨(Draft.ofLeaves d leaves).write
              ((Dialect.builtin e).placeholders 0 literals.length), literals⟩
          | some error => .error error := by
  constructor
  · intro d hd
    simp only [List.mem_cons, List.not_mem_nil, or_false] at hd
    rcases hd with rfl | rfl | rfl
    all_goals refine render_congr ?_ ?_ ?_ v <;> rfl
  · obtain ⟨leaves, stop, (hwalk : ∀ d, v.walk d = _)⟩ := v.uniform_walk
    refine ⟨leaves, stop, fun quotes d hd => ?_⟩
    have hengine : d.engine = e := by
      simp only [List.mem_cons, List.not_mem_nil, or_false] at hd
      rcases hd with rfl | rfl <;> rfl
    subst hengine
    rw [compile_eq, prepare_eq, hwalk, Draft.literals_ofLeaves, d.quoteEach_eq_builtin]
    exact ⟨rfl, rfl⟩

/-- A column of a table in a connection, with brackets as quotes or without, under another
prefix. -/
theorem Value.render_wrapped_brackets :
    let v : Value := .expression ⟨"? = ?",
      [.column ⟨"a", .table "t" .none⟩, .literal (.text "it's")], []⟩
    let d (quotes : Option Quotes) := Dialect.prefixed (.configured ⟨.postgres, "x_", quotes⟩) "p_"
    v.compile (d none) = v.compile (.prefixed (.builtin .postgres) "p_") ∧
      v.prepare (d none) = .ok ⟨"\"p_t\".\"a\" = $1", [.text "it's"]⟩ ∧
      v.prepare (d (some ⟨'[', ']'⟩)) = .ok ⟨"[p_t].[a] = $1", [.text "it's"]⟩ :=
  have hmem : Dialect.prefixed (.configured ⟨.postgres, "x_", none⟩) "p_" ∈ [_, _, _] :=
    List.mem_cons_of_mem _ List.mem_cons_self
  ⟨((Value.render_wrapped .postgres "p_" "x_" _).1 _ hmem).1, rfl, rfl⟩

end PortableSql
