import Mathlib.Tactic.SplitIfs
import PortableSql.Template

/-!
# Templates put together

A template may be split part by part where no placeholder can run across the seam.

* `Text.isBreak`: the characters that no token runs across; `Template.Seam`: a seam at such a
  character.
* `Template.glue`: pieces after other pieces, where two texts that meet become one.
* **`Template.split_append`**: at a seam, the pieces of a template are those of its parts.
-/

namespace PortableSql

/-- No token holds the character, and it changes nothing about a token after it. -/
def Text.isBreak (c : Char) : Bool := c != ':' && !isWordChar c

theorem Text.isBreak_iff {c : Char} : isBreak c = true ↔ c ≠ ':' ∧ isWordChar c = false := by
  rw [isBreak, Bool.and_eq_true, bne_iff_ne, Bool.not_eq_true']

namespace Template

open Text (isBreak isBreak_iff)

/-! ## Gluing pieces -/

/-- Pieces after other pieces; two texts that meet become one. -/
def glue : List Piece → List Piece → List Piece
  | [], qs => qs
  | .text s :: ps, qs => withText s.toList (glue ps qs)
  | .positional :: ps, qs => .positional :: glue ps qs
  | .named token :: ps, qs => .named token :: glue ps qs

theorem withText_nil (ps : List Piece) : withText [] ps = ps := if_pos rfl

theorem withText_withText (as bs : List Char) (ps : List Piece) :
    withText as (withText bs ps) = withText (as ++ bs) ps := by
  by_cases ha : as = []
  · rw [ha, withText_nil, List.nil_append]
  by_cases hb : bs = []
  · rw [hb, withText_nil, List.append_nil]
  have hab : as ++ bs ≠ [] := fun h => ha (List.append_eq_nil_iff.mp h).1
  simp only [withText, if_neg ha, if_neg hb, if_neg hab]
  rcases ps with _ | ⟨_ | _ | _, ps⟩ <;> simp only [String.ofList_append, String.append_assoc]

theorem glue_withText (cs : List Char) (ps qs : List Piece) :
    glue (withText cs ps) qs = withText cs (glue ps qs) := by
  by_cases hc : cs = []
  · rw [hc, withText_nil, withText_nil]
  rcases ps with _ | ⟨s | _ | t, ps⟩
  · have hw : withText cs [] = [.text (String.ofList cs)] := if_neg hc
    rw [hw, glue, glue, String.toList_ofList, glue]
  · have hw : withText cs (.text s :: ps) = .text (String.ofList cs ++ s) :: ps := if_neg hc
    rw [hw, glue, glue, String.toList_append, String.toList_ofList, withText_withText]
  · have hw : withText cs (.positional :: ps) = .text (String.ofList cs) :: .positional :: ps :=
      if_neg hc
    rw [hw, glue, String.toList_ofList]
  · have hw : withText cs (.named t :: ps) = .text (String.ofList cs) :: .named t :: ps := if_neg hc
    rw [hw, glue, String.toList_ofList]

theorem glue_glue (ps qs rs : List Piece) : glue (glue ps qs) rs = glue ps (glue qs rs) := by
  induction ps with
  | nil => rfl
  | cons p ps ih =>
    cases p with
    | text s => rw [glue, glue_withText, ih, glue]
    | positional => exact congrArg (.positional :: ·) ih
    | named token => exact congrArg (.named token :: ·) ih

/-! ## Seams -/

/-- **A seam that tears no token and makes none**: one of the two texts has a break there. -/
def Seam (as bs : List Char) : Prop :=
  (∀ c ∈ as.getLast?, isBreak c = true) ∨ ∀ c ∈ bs.head?, isBreak c = true

instance (as bs : List Char) : Decidable (Seam as bs) :=
  decidable_of_iff (as.getLast?.all isBreak = true ∨ bs.head?.all isBreak = true) <| by
    simp only [Seam, Option.all_eq_true, Option.mem_def]

/-- The pieces of a text, given as its characters. -/
def splitChars (cs : List Char) : List Piece := withText (scan false cs).1 (scan false cs).2

theorem split_eq (template : String) : split template = splitChars template.toList := rfl

/-- What stands before a break plays no part in the pieces after it. -/
theorem scan_of_isBreak (afterColon : Bool) {cs : List Char}
    (h : ∀ c ∈ cs.head?, isBreak c = true) :
    scan afterColon cs = ([], splitChars cs) := by
  cases cs with
  | nil => rfl
  | cons c cs =>
    obtain ⟨hcolon, hword⟩ := isBreak_iff.mp (h c rfl)
    rw [splitChars, scan, scan, hword]
    by_cases hc : c = '?'
    · simp [hc, withText_nil]
    · simp [hc, hcolon, withText_nil]

/-- The pieces after a break are those of the text after it. -/
theorem scan_cons_of_isBreak (afterColon : Bool) {c : Char} (h : isBreak c = true)
    (bs : List Char) :
    scan afterColon (c :: bs) =
      ((scan afterColon [c]).1, glue (scan afterColon [c]).2 (splitChars bs)) := by
  obtain ⟨hcolon, hword⟩ := isBreak_iff.mp h
  have hc : (c == ':') = false := beq_false_of_ne hcolon
  rw [splitChars, scan, scan, hword, hc]
  by_cases hq : c = '?'
  · simp [hq, scan, glue, withText_nil]
  · have htext : glue (withText [c] []) (splitChars bs) =
        withText (c :: (scan false bs).1) (scan false bs).2 := by
      rw [glue_withText, glue, splitChars, withText_withText, List.singleton_append]
    simp [hq, hcolon, scan, ← htext, splitChars]

theorem scan_append (afterColon : Bool) {as bs : List Char}
    (h : (∃ c ∈ as.getLast?, isBreak c = true) ∨ ∀ c ∈ bs.head?, isBreak c = true) :
    scan afterColon (as ++ bs) =
      ((scan afterColon as).1, glue (scan afterColon as).2 (splitChars bs)) := by
  -- along the first text; the break may be its last character or the first of the other one
  induction as generalizing afterColon with
  | nil =>
    obtain ⟨c, hc, -⟩ | h := h
    · cases hc
    · exact scan_of_isBreak afterColon h
  | cons c as ih =>
    by_cases hlast : as = [] ∧ isBreak c = true
    · obtain ⟨rfl, hc⟩ := hlast
      exact scan_cons_of_isBreak afterColon hc bs
    have has : (∃ c ∈ as.getLast?, isBreak c = true) ∨ ∀ c ∈ bs.head?, isBreak c = true := by
      refine h.imp_left fun ⟨b, hb, hbreak⟩ => ?_
      cases as with
      | nil =>
        cases hb
        exact absurd ⟨rfl, hbreak⟩ hlast
      | cons a as => exact ⟨b, by rwa [List.getLast?_cons_cons] at hb, hbreak⟩
    simp only [List.cons_append, scan, ih (c == ':') has]
    split_ifs
    · rfl
    · simp only [glue, glue_withText]
    · simp only [glue]
    · simp only [glue_withText]

theorem splitChars_append {as bs : List Char} (h : Seam as bs) :
    splitChars (as ++ bs) = glue (splitChars as) (splitChars bs) := by
  rcases as.eq_nil_or_concat with rfl | ⟨init, c, rfl⟩
  · rfl
  · have hbreak : (∃ b ∈ (init.concat c).getLast?, isBreak b = true) ∨
        ∀ b ∈ bs.head?, isBreak b = true := by
      refine h.imp_left fun hc => ⟨c, ?_, hc c ?_⟩ <;> simp
    rw [splitChars, scan_append false hbreak, ← glue_withText]
    rfl

/-- **At a seam, the pieces of a template are those of its parts.** -/
theorem split_append {s t : String} (h : Seam s.toList t.toList) :
    split (s ++ t) = glue (split s) (split t) := by
  rw [split_eq, String.toList_append, splitChars_append h]
  rfl

-- a colon before the seam would make the word after it a token
example : split ("a:" ++ "b ?") ≠ glue (split "a:") (split "b ?") := by
  decide

end Template

end PortableSql
