import PortableSql.Proofs.Text.Delimited
import PortableSql.Render.Compile

/-!
# The path of a name

A name stands for the list of its segments, from the outermost on. What is written for it is read
back as that list.

* `Qualifier.path`, `Name.path`, `Name.tablePath`: the segments, with the table prefix on tables.
* `Qualifier.Filled`: a qualifier without an empty list of segments.
* `Dialect.identifierText_eq_join`, `Dialect.tableText_eq_join`: the written forms are the quoted
  segments with dots between them.
* **`Quotes.readPath`**: the reader of quoted segments; `Dialect.readPath_join`: it undoes quoting.
* `Name.path_dotted`: the path of a dotted text are its parts.
* **`Name.readPath_compile`**: compiled names are read back as their paths.
-/

namespace PortableSql

/-! ## Paths -/

/-- The segments of a qualifier, with the table prefix before the base of each table. -/
def Qualifier.path (d : Dialect) : Qualifier → List String
  | .none => []
  | .segments parts => parts
  | .identifier base outer => outer.path d ++ [base]
  | .table base outer => outer.path d ++ [d.tablePrefix ++ base]

/-- **The segments of a name** that is no table. -/
def Name.path (d : Dialect) (n : Name) : List String := n.qualifier.path d ++ [n.base]

/-- **The segments of the name of a table.** -/
def Name.tablePath (d : Dialect) (n : Name) : List String :=
  n.qualifier.path d ++ [d.tablePrefix ++ n.base]

/-- No list of segments in the qualifier is empty. -/
def Qualifier.Filled : Qualifier → Prop
  | .none => True
  | .segments parts => parts ≠ []
  | .identifier _ outer => outer.Filled
  | .table _ outer => outer.Filled

theorem Text.join_concat (separator : String) {parts : List String} (h : parts ≠ []) (s : String) :
    join separator (parts ++ [s]) = join separator parts ++ separator ++ s := by
  induction parts with
  | nil => exact absurd rfl h
  | cons a parts ih =>
    cases parts with
    | nil => rfl
    | cons b parts =>
      have hb := ih (List.cons_ne_nil b parts)
      simp only [List.cons_append] at hb ⊢
      rw [join, hb, join]
      simp only [String.append_assoc]

namespace Dialect

variable (d : Dialect)

theorem join_quote_concat {path : List String} (h : path ≠ []) (s : String) :
    Text.join "." ((path ++ [s]).map d.quote) =
      Text.join "." (path.map d.quote) ++ "." ++ d.quote s := by
  have hne : path.map d.quote ≠ [] := fun hx => h (List.map_eq_nil_iff.mp hx)
  rw [List.map_append, List.map_singleton, Text.join_concat "." hne]

/-- The last segment of a path stands after the dot of the qualifier. -/
theorem qualifierText_append_quote {q : Qualifier} (h : q.Filled) (s : String) :
    d.qualifierText q ++ d.quote s = Text.join "." ((q.path d ++ [s]).map d.quote) := by
  induction q generalizing s with
  | none => exact String.empty_append
  | segments parts => exact (d.join_quote_concat h s).symm
  | identifier base outer ih =>
    rw [Qualifier.path, d.join_quote_concat (List.concat_ne_nil base _), ← ih h, qualifierText]
  | table base outer ih =>
    rw [Qualifier.path, d.join_quote_concat (List.concat_ne_nil _ _), ← ih h, qualifierText,
      quoteTable]

theorem identifierText_eq_join {n : Name} (h : n.qualifier.Filled) :
    d.identifierText n = Text.join "." ((n.path d).map d.quote) :=
  d.qualifierText_append_quote h n.base

theorem tableText_eq_join {n : Name} (h : n.qualifier.Filled) :
    d.tableText n = Text.join "." ((n.tablePath d).map d.quote) :=
  d.qualifierText_append_quote h (d.tablePrefix ++ n.base)

end Dialect

/-! ## Reading -/

namespace Quotes

/-- Reads the quoted segment that an input starts with. -/
def readSegment (q : Quotes) : List Char → Option (List Char × List Char)
  | [] => none
  | c :: cs => if c = q.left then Text.readInside q.right none cs else none

theorem length_lt_of_readSegment {q : Quotes} {cs s rest : List Char}
    (h : q.readSegment cs = some (s, rest)) : rest.length < cs.length := by
  cases cs with
  | nil => cases h
  | cons c cs =>
    rw [readSegment] at h
    split at h
    case isTrue => exact Nat.lt_succ_of_lt (Text.length_lt_of_readInside h)
    case isFalse => cases h

/-- **Reads quoted segments with dots between them**, as far as they go: their texts, and the rest
of the input. -/
def readPath (q : Quotes) (cs : List Char) : Option (List String × List Char) :=
  match _h : q.readSegment cs with
  | none => none
  | some (s, '.' :: rest) => (q.readPath rest).map fun p => (String.ofList s :: p.1, p.2)
  | some (s, rest) => some ([String.ofList s], rest)
termination_by cs.length
decreasing_by exact Nat.lt_of_succ_lt (length_lt_of_readSegment _h)

variable {q : Quotes} {cs s rest : List Char}

theorem readPath_of_dot (h : q.readSegment cs = some (s, '.' :: rest)) :
    q.readPath cs = (q.readPath rest).map fun p => (String.ofList s :: p.1, p.2) := by
  rw [readPath]
  split
  case h_1 hx =>
    rw [h] at hx
    cases hx
  case h_2 hx =>
    rw [h] at hx
    cases hx
    rfl
  case h_3 hne hx =>
    rw [h] at hx
    cases hx
    exact absurd rfl (hne rest)

theorem readPath_of_head?_ne (h : q.readSegment cs = some (s, rest)) (hd : rest.head? ≠ some '.') :
    q.readPath cs = some ([String.ofList s], rest) := by
  rw [readPath]
  split
  case h_1 hx =>
    rw [h] at hx
    cases hx
  case h_2 hx =>
    rw [h] at hx
    cases hx
    exact absurd rfl hd
  case h_3 hx =>
    rw [h] at hx
    cases hx
    rfl

end Quotes

namespace Dialect

variable (d : Dialect)

theorem toList_quote_append (s : String) (rest : List Char) :
    (d.quote s).toList ++ rest =
      d.quotes.left :: (Text.double d.quotes.right s.toList ++ d.quotes.right :: rest) := by
  simp [quote, Text.doubled, String.toList_append]

theorem readSegment_quote (s : String) {rest : List Char} (h : rest.head? ≠ some d.quotes.right) :
    d.quotes.readSegment ((d.quote s).toList ++ rest) = some (s.toList, rest) := by
  rw [toList_quote_append, Quotes.readSegment, if_pos rfl]
  exact Text.readInside_double d.quotes.right s.toList h

/-- **Reading undoes quoting.** -/
theorem readPath_join (hdot : d.quotes.right ≠ '.') {path : List String} (hne : path ≠ [])
    {rest : List Char} (hr : rest.head? ≠ some d.quotes.right) (hd : rest.head? ≠ some '.') :
    d.quotes.readPath ((Text.join "." (path.map d.quote)).toList ++ rest) = some (path, rest) := by
  induction path with
  | nil => exact absurd rfl hne
  | cons s path ih =>
    cases path with
    | nil =>
      have hs := Quotes.readPath_of_head?_ne (d.readSegment_quote s hr) hd
      rw [String.ofList_toList] at hs
      exact hs
    | cons t path =>
      -- a dot is no second closing delimiter, so the segment ends before it
      have hdot' : ('.' :: ((Text.join "." ((t :: path).map d.quote)).toList ++ rest)).head? ≠
          some d.quotes.right := fun hx => hdot (Option.some.inj hx).symm
      have hinput : (Text.join "." ((s :: t :: path).map d.quote)).toList ++ rest =
          (d.quote s).toList ++
            '.' :: ((Text.join "." ((t :: path).map d.quote)).toList ++ rest) := by
        simp [Text.join, String.toList_append]
      rw [hinput, Quotes.readPath_of_dot (d.readSegment_quote s hdot'),
        ih (List.cons_ne_nil t path), String.ofList_toList]
      rfl

end Dialect

/-! ## Dotted texts -/

namespace Name

theorem splitDots_eq_splitOn (cs : List Char) : splitDots cs = cs.splitOn '.' := by
  induction cs with
  | nil => rfl
  | cons c cs ih =>
    rw [splitDots, ih, List.splitOn_cons_eq_if_modifyHead]
    by_cases hc : c = '.'
    · rw [if_pos hc, if_pos (beq_iff_eq.mpr hc)]
    · rw [if_neg hc, if_neg (mt beq_iff_eq.mp hc)]
      cases h : cs.splitOn '.' with
      | nil => exact absurd h (List.splitOn_ne_nil '.' cs)
      | cons part parts => rfl

/-- The path of a name that is given by its segments. -/
theorem path_ofSegments (d : Dialect) {segments : List String} (h : segments ≠ []) :
    (ofSegments segments).qualifier.Filled ∧ (ofSegments segments).path d = segments := by
  obtain ⟨outer, base, rfl⟩ := (List.eq_nil_or_concat segments).resolve_left h
  rw [List.concat_eq_append, ofSegments, List.reverse_concat]
  cases ho : outer.reverse with
  | nil =>
    rw [List.reverse_eq_nil_iff.mp ho]
    exact ⟨trivial, rfl⟩
  | cons s ss =>
    have houter : (s :: ss).reverse = outer := by rw [← ho, List.reverse_reverse]
    simp only [houter]
    refine ⟨fun hx => ?_, rfl⟩
    rw [hx] at ho
    cases ho

/-- The path of a dotted text are its parts. -/
theorem path_dotted (d : Dialect) (text : String) :
    (dotted text).qualifier.Filled ∧
      (dotted text).path d = (text.toList.splitOn '.').map String.ofList := by
  rw [dotted, splitDots_eq_splitOn]
  exact path_ofSegments d fun h => List.splitOn_ne_nil '.' _ (List.map_eq_nil_iff.mp h)

end Name

/-! ## Compiled names -/

/-- **The text is read as the path**, whatever follows it, as long as that goes on neither with the
closing delimiter nor with another segment. -/
def Quotes.ReadsAs (q : Quotes) (text : String) (path : List String) : Prop :=
  ∀ rest : String, rest.toList.head? ≠ some q.right → rest.toList.head? ≠ some '.' →
    q.readPath (text ++ rest).toList = some (path, rest.toList)

theorem Dialect.readsAs_join (d : Dialect) (hdot : d.quotes.right ≠ '.') {path : List String}
    (hne : path ≠ []) : d.quotes.ReadsAs (Text.join "." (path.map d.quote)) path := by
  intro rest hr hd
  rw [String.toList_append]
  exact d.readPath_join hdot hne hr hd

/-- **Compiled names are read back as their paths**, and a dotted text has its parts for a path. -/
theorem Name.readPath_compile (d : Dialect) (hdot : d.quotes.right ≠ '.') (n : Name)
    (hn : n.qualifier.Filled) :
    (∃ text, (Value.identifier n).compile d = .ok text ∧ d.quotes.ReadsAs text (n.path d)) ∧
      (∃ text, (Value.table n).compile d = .ok text ∧ d.quotes.ReadsAs text (n.tablePath d)) ∧
      (n.base ≠ "*" →
        ∃ text, (Value.column n).compile d = .ok text ∧ d.quotes.ReadsAs text (n.path d)) ∧
      ∀ s, (dotted s).qualifier.Filled ∧
        (dotted s).path d = (s.toList.splitOn '.').map String.ofList := by
  have hidentifier : d.quotes.ReadsAs (d.identifierText n) (n.path d) := by
    rw [d.identifierText_eq_join hn]
    exact d.readsAs_join hdot (List.concat_ne_nil _ _)
  have htable : d.quotes.ReadsAs (d.tableText n) (n.tablePath d) := by
    rw [d.tableText_eq_join hn]
    exact d.readsAs_join hdot (List.concat_ne_nil _ _)
  refine ⟨⟨_, rfl, hidentifier⟩, ⟨_, rfl, htable⟩, fun hb => ⟨_, rfl, ?_⟩, path_dotted d⟩
  have hcolumn : d.columnText n = d.identifierText n := by
    rw [Dialect.columnText, if_neg hb, Dialect.identifierText]
  rw [hcolumn]
  exact hidentifier

/-- Segments with dots and closing delimiters, an empty one, and a table in the qualifier. -/
theorem Name.readPath_compile_nested :
    let d : Dialect := .prefixed (.configured ⟨.mysql, "", some ⟨'<', '>'⟩⟩) "p_"
    let n : Name := ⟨"a.>b", .table "t" (.identifier "" (.segments ["x>", "."]))⟩
    d.quotes.right ≠ '.' ∧ n.qualifier.Filled ∧ n.base ≠ "*" ∧
      ∃ text, (Value.column n).compile d = .ok text ∧ text = "<x>>>.<.>.<>.<p_t>.<a.>>b>" ∧
        d.quotes.readPath (text ++ " = 1").toList =
          some (["x>", ".", "", "p_t", "a.>b"], " = 1".toList) := by
  intro d n
  have hdot : d.quotes.right ≠ '.' := by decide
  have hn : n.qualifier.Filled := List.cons_ne_nil _ _
  have hb : n.base ≠ "*" := by decide
  obtain ⟨-, -, hcolumn, -⟩ := Name.readPath_compile d hdot n hn
  obtain ⟨text, htext, hread⟩ := hcolumn hb
  have hwritten : d.columnText n = "<x>>>.<.>.<>.<p_t>.<a.>>b>" := by decide
  have hpath : n.path d = ["x>", ".", "", "p_t", "a.>b"] := rfl
  obtain rfl : d.columnText n = text := Except.ok.inj htext
  rw [hpath] at hread
  exact ⟨hdot, hn, hb, _, htext, hwritten, hread " = 1" (by decide) (by decide)⟩

end PortableSql
