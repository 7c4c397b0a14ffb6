import PortableSql.Proofs.Template.Seam

/-!
# The placeholders of a template

What is left of the pieces of a template without its texts.

* `Text.Plain`: texts that cannot hold a placeholder.
* `Piece.isPlaceholder`, **`Template.placeholders`**.
* `Template.placeholders_append`: placeholders part by part, at seams.
* **`Template.count_placeholders`**: there is a positional one for every question mark.
* **`Template.split_text_mark`**: up to a question mark, a text without placeholders is one
  piece.
* `Template.placeholders_eq_replicate`: templates that take values by position only.
-/

namespace PortableSql

/-- The text holds neither of the two signs that placeholders start with. -/
def Text.Plain (s : String) : Prop := '?' ∉ s.toList ∧ ':' ∉ s.toList

instance (s : String) : Decidable (Text.Plain s) := by
  unfold Text.Plain
  infer_instance

theorem Text.Plain.append {s t : String} (hs : Plain s) (ht : Plain t) : Plain (s ++ t) := by
  rw [Plain, String.toList_append, List.mem_append, List.mem_append, not_or, not_or]
  exact ⟨⟨hs.1, ht.1⟩, hs.2, ht.2⟩

/-- The piece is a placeholder. -/
def Piece.isPlaceholder : Piece → Bool
  | .text _ => false
  | .positional | .named _ => true

namespace Template

/-- **The placeholders of a template**, from left to right. -/
def placeholders (template : String) : List Piece := (split template).filter Piece.isPlaceholder

/-! ## Part by part -/

theorem filter_withText (cs : List Char) (ps : List Piece) :
    (withText cs ps).filter Piece.isPlaceholder = ps.filter Piece.isPlaceholder := by
  by_cases hc : cs = []
  · rw [hc, withText_nil]
  · rcases ps with _ | ⟨_ | _ | _, ps⟩ <;> simp [withText, hc, Piece.isPlaceholder]

theorem filter_glue (ps qs : List Piece) :
    (glue ps qs).filter Piece.isPlaceholder =
      ps.filter Piece.isPlaceholder ++ qs.filter Piece.isPlaceholder := by
  induction ps with
  | nil => rfl
  | cons p ps ih =>
    cases p with
    | text s => rw [glue, filter_withText, ih, List.filter_cons_of_neg Bool.false_ne_true]
    | positional => exact congrArg (.positional :: ·) ih
    | named token => exact congrArg (.named token :: ·) ih

/-- At a seam, the placeholders of a template are those of its parts. -/
theorem placeholders_append {s t : String} (h : Seam s.toList t.toList) :
    placeholders (s ++ t) = placeholders s ++ placeholders t := by
  rw [placeholders, split_append h, filter_glue, placeholders, placeholders]

/-! ## Character by character -/

/-- The placeholders found in the characters of a text. -/
def scanned (afterColon : Bool) (cs : List Char) : List Piece :=
  (scan afterColon cs).2.filter Piece.isPlaceholder

theorem placeholders_eq_scanned (template : String) :
    placeholders template = scanned false template.toList :=
  filter_withText _ _

/-- One more character adds a placeholder if it is a question mark or starts a token. -/
theorem scanned_cons (afterColon : Bool) (c : Char) (cs : List Char) :
    scanned afterColon (c :: cs) =
      (if c = '?' then [.positional]
        else if c = ':' ∧ afterColon = false ∧ (scan (c == ':') cs).1 ≠ [] then
          [.named (String.ofList (c :: (scan (c == ':') cs).1))]
        else []) ++ scanned (c == ':') cs := by
  have hmark : Text.isWordChar '?' = false := by decide
  have hcolon : Text.isWordChar ':' = false := by decide
  simp only [scanned, scan]
  by_cases hword : Text.isWordChar c = true
  · have hq : c ≠ '?' := by rintro rfl; exact Bool.false_ne_true (hmark.symm.trans hword)
    have hc : c ≠ ':' := by rintro rfl; exact Bool.false_ne_true (hcolon.symm.trans hword)
    rw [if_pos hword, if_neg hq, if_neg fun h => hc h.1, List.nil_append]
  · rw [if_neg hword]
    split_ifs
    · exact congrArg (.positional :: ·) (filter_withText _ _)
    · rfl
    · rw [List.nil_append, filter_withText]

/-- **There is a positional placeholder for every question mark.** -/
theorem count_placeholders (template : String) :
    (placeholders template).count .positional = template.toList.count '?' := by
  have hscanned (cs : List Char) : ∀ afterColon,
      (scanned afterColon cs).count .positional = cs.count '?' := by
    induction cs with
    | nil => exact fun _ => rfl
    | cons c cs ih =>
      intro afterColon
      rw [scanned_cons, List.count_append, ih]
      by_cases hq : c = '?'
      · rw [if_pos hq, hq, List.count_singleton_self, List.count_cons_self, Nat.add_comm]
      · rw [if_neg hq, List.count_cons_of_ne hq, Nat.add_eq_right, List.count_eq_zero]
        split_ifs <;> simp
  rw [placeholders_eq_scanned, hscanned]

/-! ## Texts without placeholders -/

theorem withText_scan (afterColon : Bool) {cs : List Char} (h : scanned afterColon cs = []) :
    withText (scan afterColon cs).1 (scan afterColon cs).2 = withText cs [] := by
  induction cs generalizing afterColon with
  | nil => rfl
  | cons c cs ih =>
    rw [scanned_cons] at h
    obtain ⟨hhead, hrest⟩ := List.append_eq_nil_iff.mp h
    have hone : withText (c :: (scan (c == ':') cs).1) (scan (c == ':') cs).2 =
        withText (c :: cs) [] := by
      rw [← List.singleton_append, ← withText_withText, ih _ hrest, withText_withText,
        List.singleton_append]
    rw [scan]
    split_ifs at hhead with hq htoken
    simp only [if_neg hq, if_neg htoken]
    split_ifs
    · exact hone
    · rw [withText_nil, hone]

/-- A text without placeholders is one piece. -/
theorem split_of_placeholders_eq_nil {s : String} (h : placeholders s = []) :
    split s = withText s.toList [] :=
  withText_scan false (by rwa [← placeholders_eq_scanned])

/-- There is a seam before a question mark. -/
theorem seam_mark (s t : String) : Seam s.toList ("?" ++ t).toList := by
  refine .inr fun c hc => ?_
  rw [String.toList_append] at hc
  cases hc
  decide

theorem split_mark (t : String) : split ("?" ++ t) = .positional :: split t := by
  have hmark : Text.isWordChar '?' = false := by decide
  have hne : ('?' == ':') = false := by decide
  rw [split_eq, String.toList_append, split_eq]
  simp [splitChars, scan, hmark, hne, withText_nil]

/-- **Up to a question mark, a text without placeholders is one piece.** -/
theorem split_text_mark {s : String} (h : placeholders s = []) (t : String) :
    split (s ++ ("?" ++ t)) = withText s.toList (.positional :: split t) := by
  rw [split_append (seam_mark s t), split_mark, split_of_placeholders_eq_nil h, glue_withText, glue]

theorem placeholders_text_mark (s t : String) :
    placeholders (s ++ ("?" ++ t)) = placeholders s ++ .positional :: placeholders t := by
  rw [placeholders_append (seam_mark s t), placeholders, placeholders, split_mark]
  rfl

/-- Without question marks and tokens there are no placeholders. -/
theorem placeholders_eq_nil {s : String} (hmark : '?' ∉ s.toList)
    (h : ∀ p ∈ placeholders s, p = .positional) : placeholders s = [] := by
  refine List.eq_nil_iff_forall_not_mem.mpr fun p hp => hmark ?_
  obtain rfl := h p hp
  rw [← List.count_pos_iff, ← count_placeholders]
  exact List.count_pos_iff.mpr hp

/-- Without the signs of placeholders there are none. -/
theorem placeholders_of_plain {s : String} (h : Text.Plain s) : placeholders s = [] := by
  have hscanned {cs : List Char} (hmark : '?' ∉ cs) (hcolon : ':' ∉ cs) :
      ∀ afterColon, scanned afterColon cs = [] := by
    induction cs with
    | nil => exact fun _ => rfl
    | cons c cs ih =>
      intro afterColon
      rw [List.mem_cons, not_or] at hmark hcolon
      obtain ⟨hq, hmark⟩ := hmark
      obtain ⟨hc, hcolon⟩ := hcolon
      rw [scanned_cons, if_neg (Ne.symm hq), if_neg fun h => hc h.1.symm, ih hmark hcolon]
      rfl
  rw [placeholders_eq_scanned, hscanned h.1 h.2]

/-- A template takes `n` values by position and none by name. -/
theorem placeholders_eq_replicate {template : String} {n : Nat} :
    placeholders template = List.replicate n .positional ↔
      (split template).count .positional = n ∧ ∀ token, .named token ∉ split template := by
  have hcount : (placeholders template).count .positional =
      (split template).count .positional := List.count_filter rfl
  constructor
  · intro h
    rw [← hcount, h, List.count_replicate_self]
    refine ⟨rfl, fun token ht => ?_⟩
    have hmem : .named token ∈ placeholders template := List.mem_filter.mpr ⟨ht, rfl⟩
    rw [h] at hmem
    cases List.eq_of_mem_replicate hmem
  · rintro ⟨hn, hnamed⟩
    have hall : ∀ p ∈ placeholders template, .positional = p := by
      intro p hp
      obtain ⟨hp, hplaceholder⟩ := List.mem_filter.mp hp
      cases p with
      | text s => cases hplaceholder
      | positional => rfl
      | named token => exact absurd hp (hnamed token)
    rw [List.eq_replicate_iff, ← hn, ← hcount, List.count_eq_length.mpr hall]
    exact ⟨rfl, fun p hp => (hall p hp).symm⟩

end Template

end PortableSql
