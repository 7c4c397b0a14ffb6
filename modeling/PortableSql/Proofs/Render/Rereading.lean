import PortableSql.Proofs.Render.Outcome
import PortableSql.Proofs.Render.Phrase
import PortableSql.Proofs.Template.Placeholders

/-!
# Prepared statements read again

Where the engine marks bound values with question marks, a prepared statement is a template for its
own literals. If it has no other placeholders, every renderer writes it as it writes the value that
it was prepared from.

* `Prepared.toValue`: the statement as a template with its literals.
* `Draft.sql`: a draft with question marks; `Draft.count_sql`: how many there are.
* **`Draft.fillFrom_split_sql`**: such a text is filled as the draft is written.
* `Renders.render_reread`: a value and its draft, read again, are rendered alike.
* **`Value.prepare_reread`**: preparing twice is preparing once, and compiling after preparing is
  compiling.
-/

namespace PortableSql

/-- The prepared statement as a template with the literals for values. -/
def Prepared.toValue (p : Prepared) : Value :=
  .expression (.withParameters p.sql (p.binds.map .literal))

namespace Draft

/-- The draft with question marks for its literals. -/
def sql (t : Draft) : String := t.write (List.replicate t.literals.length "?")

@[simp] theorem sql_nil : sql nil = "" := rfl

@[simp] theorem sql_text (s : String) (t : Draft) : sql (text s t) = s ++ t.sql := rfl

@[simp] theorem sql_literal (l : Literal) (t : Draft) : sql (literal l t) = "?" ++ t.sql := rfl

/-- There is a question mark for every literal, besides those of the texts. -/
theorem count_sql (t : Draft) :
    t.sql.toList.count '?' = t.literals.length + (t.write []).toList.count '?' := by
  induction t with
  | nil => rfl
  | text s t ih =>
    rw [sql_text, write, literals, String.toList_append, String.toList_append, List.count_append,
      List.count_append, ih]
    omega
  | literal l t ih =>
    rw [sql_literal, write, literals, String.toList_append, List.count_append, ih, List.length_cons]
    change 1 + _ = _
    omega

variable {m : Type → Type} [Monad m] [MonadExceptOf RenderError m] [LawfulMonad m] (S : Scribe m)

/-- **A draft with question marks is filled as it is written**, if no placeholder is found in it but
the question marks of its literals. -/
theorem fillFrom_split_sql (template : String) (t : Draft) (before : String) (used : Nat)
    (hmark : '?' ∉ (before ++ t.write []).toList)
    (hnamed : ∀ p ∈ Template.placeholders (before ++ t.sql), p = .positional) :
    fillFrom template [] (Template.split (before ++ t.sql)) used (t.literals.map S.literal) =
      (do return before ++ (← t.perform S)) := by
  induction t generalizing before used with
  | nil =>
    rw [sql_nil, String.append_empty] at hnamed ⊢
    rw [write, String.append_empty] at hmark
    rw [Template.split_of_placeholders_eq_nil (Template.placeholders_eq_nil hmark hnamed),
      fillFrom_withText, String.ofList_toList]
    rfl
  | text s t ih =>
    rw [sql_text, ← String.append_assoc] at hnamed ⊢
    rw [write, ← String.append_assoc] at hmark
    rw [literals, ih _ _ hmark hnamed, perform]
    simp only [bind_assoc, pure_bind, String.append_assoc]
  | literal l t ih =>
    rw [sql_literal, Template.placeholders_text_mark, List.forall_mem_append,
      List.forall_mem_cons] at hnamed
    rw [write, String.toList_append, List.mem_append, not_or] at hmark
    have hrest := ih "" (used + 1) (by rw [String.empty_append]; exact hmark.2)
      (by rw [String.empty_append]; exact hnamed.2.2)
    simp only [String.empty_append, bind_pure] at hrest
    rw [sql_literal, Template.split_text_mark (Template.placeholders_eq_nil hmark.1 hnamed.1),
      fillFrom_withText, String.ofList_toList, literals, List.map_cons, fillFrom, hrest, perform]

end Draft

/-- A walk to the end is performed by writing its draft. -/
theorem Walk.perform_of_stop_eq_none {m : Type → Type} [Monad m] [MonadExceptOf RenderError m]
    [LawfulMonad m] (S : Scribe m) {w : Walk} (h : w.stop = none) :
    w.perform S = w.draft.perform S := by
  rw [perform, h]
  exact bind_pure _

/-- **A draft without placeholders of its own, read again, is rendered as it is written.** -/
theorem Renders.render_reread {m : Type → Type} [Monad m] [MonadExceptOf RenderError m]
    [LawfulMonad m] {d : Dialect} {S : Scribe m} {render : Value → m String}
    (h : Renders d S render) (t : Draft)
    (hsplit : Template.placeholders t.sql = List.replicate t.literals.length .positional) :
    render (Prepared.toValue ⟨t.sql, t.literals⟩) = t.perform S := by
  have hmark : '?' ∉ (t.write []).toList := by
    have hcount := Template.count_placeholders t.sql
    rw [hsplit, List.count_replicate_self, t.count_sql] at hcount
    rw [← List.count_eq_zero]
    omega
  have hfill := t.fillFrom_split_sql S t.sql "" 0 (by rwa [String.empty_append]) <| by
    rw [String.empty_append, hsplit]
    exact fun p => List.eq_of_mem_replicate
  simp only [String.empty_append, bind_pure] at hfill
  have hliterals : (t.literals.map Value.literal).map render = t.literals.map S.literal := by
    rw [List.map_map]
    exact List.map_congr_left fun l _ => h.literal l
  rw [Prepared.toValue, Expression.withParameters, h.expression, hliterals]
  split_ifs with hempty
  · -- without literals the statement stands as it is, which is how it is filled as well
    have hnil : t.literals = [] := by simpa using hempty
    rw [hnil] at hsplit hfill
    rw [← hfill, Template.split_of_placeholders_eq_nil hsplit, fillFrom_withText,
      String.ofList_toList]
    simp only [List.map_nil, fillFrom, pure_bind, String.append_empty]
  · exact hfill

/-- The prepared statement of a draft where literals are marked by question marks. -/
theorem Value.prepare_eq_ok_sql {d : Dialect} {v : Value} {p : Prepared}
    (hd : ∀ n, d.placeholder n = "?") (hp : v.prepare d = .ok p) :
    (v.walk d).stop = none ∧ p = ⟨(v.walk d).draft.sql, (v.walk d).draft.literals⟩ := by
  obtain ⟨hs, rfl⟩ := prepare_eq_ok_iff.mp hp
  have hmarks (n : Nat) : d.placeholders 0 n = List.replicate n "?" := by
    rw [Dialect.placeholders, List.map_congr_left fun k _ => hd k, List.map_const',
      List.length_range']
  rw [hmarks]
  exact ⟨hs, rfl⟩

/-- **Preparing twice is preparing once, and compiling goes by way of preparing**: where bound
values are marked by question marks, and the prepared text has a positional placeholder for each of
them and no other one, the text with its literals is prepared as it is, and compiled as the value
is, errors included. -/
theorem Value.prepare_reread {d : Dialect} {v : Value} {p : Prepared}
    (hd : ∀ n, d.placeholder n = "?") (hp : v.prepare d = .ok p)
    (hcount : (Template.split p.sql).count .positional = p.binds.length)
    (hnamed : ∀ token, .named token ∉ Template.split p.sql) :
    p.toValue.prepare d = .ok p ∧ p.toValue.compile d = v.compile d := by
  have hsplit := Template.placeholders_eq_replicate.mpr ⟨hcount, hnamed⟩
  obtain ⟨hs, rfl⟩ := prepare_eq_ok_sql hd hp
  refine ⟨?_, ?_⟩
  · rw [← hp, prepare, prepare, (renders_binding d).render_reread _ hsplit,
      (renders_binding d).eq_perform v, Walk.perform_of_stop_eq_none _ hs]
  · rw [(renders_compile d).render_reread _ hsplit, (renders_compile d).eq_perform v,
      Walk.perform_of_stop_eq_none _ hs]

/-- A cast, a literal with placeholder signs in it, and a double that no literal can stand for. -/
theorem Value.prepare_reread_infinite :
    let v : Value := .expression ⟨"? = x::int AND b IN (:list)", [.column ⟨"a", .none⟩],
      [(":list", .sequence [.literal (.text "?, :n"), .sequence [], .literal (.float (1 / 0))])]⟩
    let p : Prepared := ⟨"\"a\" = x::int AND b IN (?, ?)", [.text "?, :n", .float (1 / 0)]⟩
    let d : Dialect := .builtin .sqlite
    v.prepare d = .ok p ∧ Template.split p.sql =
      [.text "\"a\" = x::int AND b IN (", .positional, .text ", ", .positional, .text ")"] ∧
      p.toValue.prepare d = .ok p ∧ p.toValue.compile d = v.compile d ∧
      v.compile d = .error (.nonFiniteFloat (.infinite false)) := by
  intro v p d
  have hp : v.prepare d = .ok p := rfl
  have hsplit : Template.split p.sql = [.text "\"a\" = x::int AND b IN (", .positional,
      .text ", ", .positional, .text ")"] := by decide
  obtain ⟨hprepare, hcompile⟩ := Value.prepare_reread (fun _ => rfl) hp (by rw [hsplit]; rfl)
    (by rw [hsplit]; simp)
  exact ⟨hp, hsplit, hprepare, hcompile, by decide⟩

end PortableSql
