import Mathlib.Data.List.Chain
import PortableSql.Proofs.Template.Placeholders
import PortableSql.Proofs.Text.Run

/-!
# The decomposition of a template

The pieces of a template are the only ones that it can be taken apart into, if texts hold all that
is no placeholder and tokens are as long as they can be.

* `Template.text`, `Template.chars`: what pieces stand for.
* `Template.Doubled`, `Piece.Stands`: texts without placeholders, and tokens between other pieces.
* **`Template.Canonical`**: pieces that all stand where they may.
* `Template.splitFrom_cons`: splitting character by character.
* `Template.canonical_splitFrom`, `Template.Canonical.splitFrom_chars`: splitting gives canonical
  pieces, and gives canonical pieces back.
* **`Template.split_eq_iff`**: the pieces of a template are the canonical ones that make it up.
-/

namespace PortableSql

open Text (isWordChar)

namespace Template

/-! ## Pieces that stand where they may -/

/-- The text that pieces stand for. -/
def text (ps : List Piece) : String := String.join (ps.map Piece.source)

/-- The characters that pieces stand for. -/
def chars (ps : List Piece) : List Char := ps.flatMap fun p => p.source.toList

/-- A colon before a word character comes right after another colon. -/
def Doubled (cs : List Char) : Prop :=
  ∀ as c bs, cs = as ++ ':' :: c :: bs → isWordChar c = true → as.getLast? = some ':'

end Template

/-- **The piece may stand between two parts of a template.** A text is not empty and holds no
placeholder. A token is a colon with word characters; no further one comes after it, and no colon
stands before it. -/
def Piece.Stands (before after : List Char) : Piece → Prop
  | .text s => s ≠ "" ∧ '?' ∉ s.toList ∧ Template.Doubled s.toList
  | .positional => True
  | .named token =>
    (∃ word, word ≠ [] ∧ (∀ c ∈ word, isWordChar c = true) ∧ token.toList = ':' :: word) ∧
      (∀ c ∈ after.head?, isWordChar c = false) ∧ before.getLast? ≠ some ':'

theorem Piece.Stands.source_ne_nil {before after : List Char} {p : Piece}
    (h : p.Stands before after) : p.source.toList ≠ [] := by
  cases p with
  | text s => exact fun hs => h.1 (String.toList_eq_nil_iff.mp hs)
  | positional => exact List.cons_ne_nil _ _
  | named token =>
    obtain ⟨⟨word, -, -, htoken⟩, -⟩ := h
    rw [source, htoken]
    exact List.cons_ne_nil _ _

/-- Of what comes before only the last character matters, and only to a placeholder. -/
theorem Piece.Stands.congr {before before' after : List Char} {p : Piece}
    (h : p.Stands before after)
    (hlast : p.isPlaceholder = true → before'.getLast? = some ':' → before.getLast? = some ':') :
    p.Stands before' after := by
  cases p with
  | text s => exact h
  | positional => trivial
  | named token => exact ⟨h.1, h.2.1, fun hc => h.2.2 (hlast rfl hc)⟩

namespace Template

/-- **Each piece stands where it may**, and no two texts stand side by side. -/
structure Canonical (ps : List Piece) : Prop where
  apart : ps.IsChain fun p q => p.isPlaceholder = true ∨ q.isPlaceholder = true
  stands : ∀ before p after, ps = before ++ p :: after → p.Stands (chars before) (chars after)

theorem toList_text (ps : List Piece) : (text ps).toList = chars ps := by
  rw [text, String.toList_join, List.flatMap_map, chars]

theorem chars_cons (p : Piece) (ps : List Piece) : chars (p :: ps) = p.source.toList ++ chars ps :=
  List.flatMap_cons

theorem chars_withText (cs : List Char) (ps : List Piece) :
    chars (withText cs ps) = cs ++ chars ps := by
  by_cases hc : cs = []
  · rw [hc, withText_nil, List.nil_append]
  · rcases ps with _ | ⟨s | _ | _, ps⟩ <;>
      simp [withText, hc, chars_cons, Piece.source, String.toList_append]

theorem withText_of_ne_nil {cs : List Char} (hc : cs ≠ []) {ps : List Piece}
    (h : ∀ p ∈ ps.head?, p.isPlaceholder = true) :
    withText cs ps = .text (String.ofList cs) :: ps := by
  rcases ps with _ | ⟨s | _ | _, ps⟩
  · exact if_neg hc
  · exact absurd (h _ rfl) Bool.false_ne_true
  · exact if_neg hc
  · exact if_neg hc

namespace Canonical

theorem nil : Canonical [] where
  apart := .nil
  stands before p after h := by simp at h

theorem tail {p : Piece} {ps : List Piece} (h : Canonical (p :: ps)) : Canonical ps where
  apart := h.apart.tail
  stands before q after hps := by
    refine (h.stands (p :: before) q after (congrArg (p :: ·) hps)).congr fun _ hlast => ?_
    rw [chars_cons, List.getLast?_append, hlast]
    rfl

/-- One more piece in front. -/
theorem cons {p : Piece} {ps : List Piece} (h : Canonical ps) (hp : p.Stands [] (chars ps))
    (hhead : ∀ q ∈ ps.head?, p.isPlaceholder = true ∨ q.isPlaceholder = true)
    (hcolon : ∀ token, ps.head? = some (.named token) → p.source.toList.getLast? ≠ some ':') :
    Canonical (p :: ps) where
  apart := List.isChain_cons.mpr ⟨hhead, h.apart⟩
  stands before q after hps := by
    cases before with
    | nil =>
      obtain ⟨rfl, rfl⟩ := List.cons.inj hps
      exact hp
    | cons r before =>
      obtain ⟨rfl, rfl⟩ := List.cons.inj hps
      have hq := h.stands before q after rfl
      rw [chars_cons]
      cases before with
      | nil =>
        cases q with
        | text s => exact hq
        | positional => trivial
        | named token =>
          exact ⟨hq.1, hq.2.1, by simpa [chars] using hcolon token rfl⟩
      | cons r' before =>
        -- the piece before has characters of its own
        have hne : chars (r' :: before) ≠ [] := by
          rw [chars_cons]
          exact List.append_ne_nil_of_left_ne_nil (h.stands [] r' _ rfl).source_ne_nil _
        refine hq.congr fun _ hlast => ?_
        rwa [List.getLast?_append_of_ne_nil _ hne] at hlast

/-- A text before placeholders. -/
theorem withText {cs : List Char} {ps : List Piece} (h : Canonical ps) (hmark : '?' ∉ cs)
    (hdoubled : Doubled cs) (hhead : ∀ p ∈ ps.head?, p.isPlaceholder = true)
    (hcolon : ∀ token, ps.head? = some (.named token) → cs.getLast? ≠ some ':') :
    Canonical (Template.withText cs ps) := by
  by_cases hc : cs = []
  · rwa [hc, withText_nil]
  · rw [withText_of_ne_nil hc hhead]
    refine h.cons ?_ (fun q hq => .inr (hhead q hq)) fun token htoken => ?_
    · exact ⟨fun hs => hc (String.ofList_eq_empty_iff.mp hs), by rwa [String.toList_ofList],
        by rwa [String.toList_ofList]⟩
    · rw [Piece.source, String.toList_ofList]
      exact hcolon token htoken

end Canonical

/-! ## Splitting from left to right -/

/-- The pieces of a text that comes after a colon, or not. -/
def splitFrom (afterColon : Bool) (cs : List Char) : List Piece :=
  withText (scan afterColon cs).1 (scan afterColon cs).2

theorem ne_of_isWordChar {c : Char} (h : isWordChar c = true) : c ≠ '?' ∧ c ≠ ':' := by
  have hmark : isWordChar '?' = false := by decide
  have hcolon : isWordChar ':' = false := by decide
  exact ⟨fun hc => Bool.false_ne_true (hmark.symm.trans (hc ▸ h)),
    fun hc => Bool.false_ne_true (hcolon.symm.trans (hc ▸ h))⟩

theorem scan_cons (afterColon : Bool) (c : Char) (cs : List Char) :
    scan afterColon (c :: cs) =
      if isWordChar c then (c :: (scan (c == ':') cs).1, (scan (c == ':') cs).2)
      else if c = '?' then ([], .positional :: splitFrom (c == ':') cs)
      else if c = ':' ∧ afterColon = false ∧ (scan (c == ':') cs).1 ≠ [] then
        ([], .named (String.ofList (c :: (scan (c == ':') cs).1)) :: (scan (c == ':') cs).2)
      else ([], withText (c :: (scan (c == ':') cs).1) (scan (c == ':') cs).2) := rfl

/-- A run of word characters is set aside. -/
theorem scan_eq (afterColon : Bool) (cs : List Char) :
    scan afterColon cs = (cs.takeWhile isWordChar,
      splitFrom (afterColon && (cs.takeWhile isWordChar).isEmpty) (cs.dropWhile isWordChar)) := by
  induction cs generalizing afterColon with
  | nil => rfl
  | cons c cs ih =>
    by_cases hword : isWordChar c = true
    · have hc : (c == ':') = false := beq_false_of_ne (ne_of_isWordChar hword).2
      rw [scan_cons, if_pos hword, ih, hc, List.takeWhile_cons_of_pos hword,
        List.dropWhile_cons_of_pos hword, List.isEmpty_cons, Bool.and_false, Bool.false_and]
    · have hrun : (scan afterColon (c :: cs)).1 = [] := by
        rw [scan_cons, if_neg hword]
        split_ifs <;> rfl
      rw [List.takeWhile_cons_of_neg hword, List.dropWhile_cons_of_neg hword, List.isEmpty_nil,
        Bool.and_true, splitFrom, hrun, withText_nil, ← hrun]

/-- **The first character of a text** is a placeholder, starts a token, or is text. -/
theorem splitFrom_cons (afterColon : Bool) (c : Char) (cs : List Char) :
    splitFrom afterColon (c :: cs) =
      if c = '?' then .positional :: splitFrom false cs
      else if c = ':' ∧ afterColon = false ∧ cs.takeWhile isWordChar ≠ [] then
        .named (String.ofList (c :: cs.takeWhile isWordChar)) ::
          splitFrom false (cs.dropWhile isWordChar)
      else withText [c] (splitFrom (c == ':') cs) := by
  have hrest : withText [c] (splitFrom (c == ':') cs) =
      withText (c :: (scan (c == ':') cs).1) (scan (c == ':') cs).2 := by
    rw [splitFrom, withText_withText, List.singleton_append]
  rw [splitFrom, scan_cons]
  by_cases hword : isWordChar c = true
  · obtain ⟨hq, hc⟩ := ne_of_isWordChar hword
    rw [if_pos hword, if_neg hq, if_neg fun h => hc h.1, hrest]
  rw [if_neg hword]
  by_cases hq : c = '?'
  · subst hq
    rfl
  rw [if_neg hq, if_neg hq]
  have hrun : (scan (c == ':') cs).1 = cs.takeWhile isWordChar := by rw [scan_eq]
  by_cases htoken : c = ':' ∧ afterColon = false ∧ cs.takeWhile isWordChar ≠ []
  · have hempty : (cs.takeWhile isWordChar).isEmpty = false := by simpa using htoken.2.2
    rw [hrun, if_pos htoken, if_pos htoken, withText_nil, scan_eq, hempty, Bool.and_false]
  · rw [hrest, hrun, if_neg htoken, if_neg htoken, withText_nil]

/-- What is set aside and the pieces after it make up the text. -/
theorem chars_scan (afterColon : Bool) (cs : List Char) :
    (scan afterColon cs).1 ++ chars (scan afterColon cs).2 = cs := by
  induction cs generalizing afterColon with
  | nil => rfl
  | cons c cs ih =>
    rw [scan_cons]
    split_ifs with hword hq
    · exact congrArg (c :: ·) (ih _)
    · rw [List.nil_append, chars_cons, splitFrom, chars_withText, ih, hq]
      rfl
    · rw [List.nil_append, chars_cons, Piece.source, String.toList_ofList, List.cons_append, ih]
    · rw [List.nil_append, chars_withText, List.cons_append, ih]

/-- Splitting loses nothing. -/
theorem chars_splitFrom (afterColon : Bool) (cs : List Char) :
    chars (splitFrom afterColon cs) = cs := by
  rw [splitFrom, chars_withText, chars_scan]

/-- The last character is a colon. -/
def endsInColon (cs : List Char) : Bool := cs.getLast? == some ':'

theorem endsInColon_concat (cs : List Char) (c : Char) : endsInColon (cs ++ [c]) = (c == ':') := by
  rw [endsInColon, List.getLast?_concat]
  rfl

/-! ## Splitting gives canonical pieces -/

theorem doubled_of_length_le_one {cs : List Char} (h : cs.length ≤ 1) : Doubled cs := by
  rintro as c bs rfl
  rw [List.length_append, List.length_cons, List.length_cons] at h
  omega

theorem Doubled.of_append {as bs : List Char} (h : Doubled (as ++ bs)) : Doubled as := by
  rintro init c cs rfl hc
  exact h init c (cs ++ bs) (by simp) hc

/-- After one more character only the last two need a look. -/
theorem Doubled.concat {cs : List Char} {d : Char} (h : Doubled cs)
    (hd : isWordChar d = true → ∀ as, cs = as ++ [':'] → as.getLast? = some ':') :
    Doubled (cs ++ [d]) := by
  intro as c bs hcs hc
  rcases bs.eq_nil_or_concat with rfl | ⟨init, b, rfl⟩
  · have hlast : cs ++ [d] = (as ++ [':']) ++ [c] := by simpa using hcs
    obtain ⟨hinit, hdc⟩ := List.append_inj' hlast rfl
    cases hdc
    exact hd hc as hinit
  · have hlast : cs ++ [d] = (as ++ ':' :: c :: init) ++ [b] := by simpa using hcs
    exact h as c init (List.append_inj' hlast rfl).1 hc

theorem endsInColon_eq_false {cs : List Char} :
    endsInColon cs = false ↔ cs.getLast? ≠ some ':' :=
  beq_eq_false_iff_ne

/-- A token with the characters that are left after it. -/
theorem Canonical.token {cs : List Char} (h : Canonical (splitFrom false (cs.dropWhile isWordChar)))
    (hrun : cs.takeWhile isWordChar ≠ []) :
    Canonical (.named (String.ofList (':' :: cs.takeWhile isWordChar)) ::
      splitFrom false (cs.dropWhile isWordChar)) := by
  have hword : ∀ d ∈ cs.takeWhile isWordChar, isWordChar d = true :=
    fun d hd => List.mem_takeWhile_imp hd
  have hfirst : ([] : List Char).getLast? ≠ some ':' := by decide
  refine h.cons ⟨⟨_, hrun, hword, String.toList_ofList⟩, fun d hd => ?_, hfirst⟩
    (fun _ _ => .inl rfl) fun _ _ hlast => ?_
  · have hnot := List.head?_dropWhile_not isWordChar cs
    rw [chars_splitFrom] at hd
    rwa [Option.mem_def.mp hd] at hnot
  · rw [Piece.source, String.toList_ofList, ← List.singleton_append,
      List.getLast?_append_of_ne_nil _ hrun] at hlast
    exact (ne_of_isWordChar (hword _ (List.mem_of_getLast? hlast))).2 rfl

/-- **Splitting gives canonical pieces**, also after the beginning `pre` of a text. -/
theorem canonical_splitFrom (cs pre : List Char) (hmark : '?' ∉ pre)
    (hdoubled : Doubled (pre ++ cs.take 1)) :
    Canonical (withText pre (splitFrom (endsInColon pre) cs)) := by
  -- by the length of the rest, of which a token takes several characters
  induction hn : cs.length using Nat.strongRecOn generalizing cs pre with
  | ind n ih =>
  subst hn
  have hstart (rest : List Char) (hlt : rest.length < cs.length) :
      Canonical (splitFrom false rest) := by
    have h := ih rest.length hlt rest [] List.not_mem_nil
      (doubled_of_length_le_one (List.length_take_le 1 _)) rfl
    rwa [withText_nil] at h
  cases cs with
  | nil =>
    exact Canonical.nil.withText hmark hdoubled.of_append (fun _ h => nomatch h)
      fun _ h => nomatch h
  | cons c cs =>
    rw [splitFrom_cons]
    split_ifs with hq htoken
    · have hrest : Canonical (.positional :: splitFrom false cs) :=
        (hstart cs (Nat.lt_succ_self _)).cons trivial (fun _ _ => .inl rfl) fun _ _ => by decide
      refine hrest.withText hmark hdoubled.of_append (fun p hp => ?_) fun _ h => nomatch h
      cases hp
      rfl
    · obtain ⟨rfl, hcolon, hrun⟩ := htoken
      have hrest := (hstart (cs.dropWhile isWordChar)
        (Nat.lt_succ_of_le (List.dropWhile_sublist _).length_le)).token hrun
      refine hrest.withText hmark hdoubled.of_append (fun p hp => ?_) fun _ _ =>
        endsInColon_eq_false.mp hcolon
      cases hp
      rfl
    · have hmark' : '?' ∉ pre ++ [c] := by simpa [hmark] using Ne.symm hq
      rw [withText_withText, ← endsInColon_concat pre c]
      refine ih cs.length (Nat.lt_succ_self _) cs (pre ++ [c]) hmark' ?_ rfl
      cases cs with
      | nil => simpa using hdoubled
      | cons d cs =>
        refine Doubled.concat hdoubled fun hd as has => ?_
        obtain ⟨rfl, hc⟩ := List.append_inj' has rfl
        -- otherwise the colon would start a token
        by_contra hlast
        refine htoken ⟨(List.cons.inj hc).1, endsInColon_eq_false.mpr hlast, ?_⟩
        rw [List.takeWhile_cons_of_pos hd]
        exact List.cons_ne_nil _ _

/-! ## Canonical pieces are given back -/

/-- A text without placeholders is one piece, whatever comes after it. -/
theorem splitFrom_append {pre cs rest : List Char} (hmark : '?' ∉ cs)
    (hdoubled : Doubled (pre ++ cs)) (hrest : ∀ c ∈ rest.head?, isWordChar c = false) :
    splitFrom (endsInColon pre) (cs ++ rest) =
      withText cs (splitFrom (endsInColon (pre ++ cs)) rest) := by
  induction cs generalizing pre with
  | nil => rw [List.append_nil, withText_nil, List.nil_append]
  | cons c cs ih =>
    have hq : c ≠ '?' := fun h => hmark (h ▸ List.mem_cons_self)
    have htoken : ¬(c = ':' ∧ endsInColon pre = false ∧
        (cs ++ rest).takeWhile isWordChar ≠ []) := by
      rintro ⟨rfl, hcolon, hrun⟩
      refine endsInColon_eq_false.mp hcolon ?_
      cases cs with
      | nil => exact absurd (Text.takeWhile_of_head? hrest).1 hrun
      | cons d cs =>
        refine hdoubled pre d cs rfl ?_
        by_contra hd
        exact hrun (List.takeWhile_cons_of_neg hd)
    have happend : pre ++ c :: cs = pre ++ [c] ++ cs := by simp
    rw [happend] at hdoubled ⊢
    rw [List.cons_append, splitFrom_cons, if_neg hq, if_neg htoken, ← endsInColon_concat pre c,
      ih (fun h => hmark (List.mem_cons_of_mem c h)) hdoubled, withText_withText,
      List.singleton_append]

/-- What stands before matters to a colon only. -/
theorem splitFrom_of_head?_ne {cs : List Char} (h : cs.head? ≠ some ':') (afterColon : Bool) :
    splitFrom afterColon cs = splitFrom false cs := by
  cases cs with
  | nil => rfl
  | cons c cs =>
    have hc : c ≠ ':' := fun hc => h (congrArg some hc)
    simp only [splitFrom_cons, hc, false_and, if_false]

/-- A placeholder starts with its sign. -/
theorem Canonical.head?_chars {ps : List Piece} (h : Canonical ps)
    (hhead : ∀ p ∈ ps.head?, p.isPlaceholder = true) :
    (∀ c ∈ (chars ps).head?, isWordChar c = false) ∧
      ((chars ps).head? = some ':' → ∃ token after, ps = .named token :: after) := by
  rcases ps with _ | ⟨s | _ | token, ps⟩
  · exact ⟨fun _ hc => (nomatch hc), fun hc => (nomatch hc)⟩
  · exact absurd (hhead _ rfl) Bool.false_ne_true
  · have hmark : (chars (.positional :: ps)).head? = some '?' := rfl
    have hword : isWordChar '?' = false := by decide
    rw [hmark]
    exact ⟨fun c hc => Option.some.inj hc ▸ hword, fun hc => absurd hc (by decide)⟩
  · obtain ⟨⟨word, -, -, htoken⟩, -⟩ := h.stands [] _ ps rfl
    have hcolon : (chars (.named token :: ps)).head? = some ':' := by
      rw [chars_cons, Piece.source, htoken]
      rfl
    have hword : isWordChar ':' = false := by decide
    rw [hcolon]
    exact ⟨fun c hc => Option.some.inj hc ▸ hword, fun _ => ⟨token, ps, rfl⟩⟩

/-- **Canonical pieces are what their characters are split into.** -/
theorem Canonical.splitFrom_chars {ps : List Piece} (h : Canonical ps) :
    splitFrom false (chars ps) = ps := by
  induction ps with
  | nil => rfl
  | cons p ps ih =>
    have hrest := ih h.tail
    have hp := h.stands [] p ps rfl
    rw [chars_cons]
    cases p with
    | positional =>
      have hmark : Piece.positional.source.toList = ['?'] := by decide
      rw [hmark, List.singleton_append, splitFrom_cons, if_pos rfl, hrest]
    | named token =>
      obtain ⟨⟨word, hne, hword, htoken⟩, hafter, -⟩ := hp
      obtain ⟨htake, hdrop⟩ := Text.run_append hword hafter
      rw [Piece.source, htoken, List.cons_append, splitFrom_cons, if_neg (by decide), htake, hdrop,
        if_pos ⟨rfl, rfl, hne⟩, hrest, ← htoken, String.ofList_toList]
    | text s =>
      obtain ⟨hne, hmark, hdoubled⟩ := hp
      have hhead : ∀ q ∈ ps.head?, q.isPlaceholder = true := fun q hq =>
        ((List.isChain_cons.mp h.apart).1 q hq).resolve_left Bool.false_ne_true
      obtain ⟨hapart, hcolon⟩ := h.tail.head?_chars hhead
      have hsame : splitFrom (endsInColon s.toList) (chars ps) = splitFrom false (chars ps) := by
        cases hends : endsInColon s.toList with
        | false => rfl
        | true =>
          refine splitFrom_of_head?_ne (fun hc => ?_) true
          obtain ⟨token, after, rfl⟩ := hcolon hc
          have hlast : (chars [.text s]).getLast? = some ':' := by
            simpa [chars, Piece.source, endsInColon] using hends
          exact (h.stands [.text s] _ after rfl).2.2 hlast
      have hnil : Doubled ([] ++ s.toList) := hdoubled
      have htext := splitFrom_append hmark hnil hapart
      rw [List.nil_append, hsame, hrest] at htext
      rw [Piece.source]
      refine htext.trans ?_
      rw [withText_of_ne_nil (fun hs => hne (String.toList_eq_nil_iff.mp hs)) hhead,
        String.ofList_toList]

/-- The pieces of a template make it up. -/
theorem text_split (template : String) : text (split template) = template := by
  rw [← String.toList_inj, toList_text]
  exact chars_splitFrom false template.toList

theorem canonical_split (template : String) : Canonical (split template) := by
  have h := canonical_splitFrom template.toList [] List.not_mem_nil
    (doubled_of_length_le_one (List.length_take_le 1 _))
  rwa [withText_nil] at h

/-- **The pieces of a template are the canonical pieces that make it up.** -/
theorem split_eq_iff (template : String) (ps : List Piece) :
    split template = ps ↔ text ps = template ∧ Canonical ps := by
  constructor
  · rintro rfl
    exact ⟨text_split template, canonical_split template⟩
  · rintro ⟨rfl, h⟩
    rw [split_eq, toList_text]
    exact h.splitFrom_chars

-- a colon right after another one starts no token
example : split ":a::b:?:::c:" = [.named ":a", .text "::b:", .positional, .text ":::c:"] := by
  decide

end Template

end PortableSql
