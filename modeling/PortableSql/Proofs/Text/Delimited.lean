import PortableSql.Text.Doubling

/-!
# Reading delimited texts

The counterpart of doubling: the inside of a delimited text is read up to its closing delimiter.

* **`readInside`**: the reader, for a closing delimiter and an escape character, if there is one.
* `readInside_cons`, `readInside_close_close`, `readInside_close`, `readInside_escape`: its steps.
* **`readInside_double`**, **`readInside_double_double`**: what was doubled is read back.
* `length_lt_of_readInside`: what is left is shorter.
-/

namespace PortableSql.Text

/-- **Reads the inside of a delimited text**: the text that is meant, and what comes after the
closing delimiter. Two closing delimiters stand for one, and the character after an escape for
itself. -/
def readInside (close : Char) (escape : Option Char) : List Char → Option (List Char × List Char)
  | [] => none
  | c :: cs =>
    if some c = escape then
      match cs with
      | [] => none
      | e :: rest => (readInside close escape rest).map fun p => (e :: p.1, p.2)
    else if c = close then
      match cs with
      | [] => some ([], [])
      | e :: rest =>
        if e = close then (readInside close escape rest).map fun p => (close :: p.1, p.2)
        else some ([], e :: rest)
    else (readInside close escape cs).map fun p => (c :: p.1, p.2)

variable {close : Char} {escape : Option Char} {s rest : List Char}

/-! ## Steps -/

theorem readInside_cons {c : Char} (he : some c ≠ escape) (hc : c ≠ close) (cs : List Char) :
    readInside close escape (c :: cs) =
      (readInside close escape cs).map fun p => (c :: p.1, p.2) := by
  rw [readInside.eq_def]
  simp only [if_neg he, if_neg hc]

theorem readInside_close_close (he : some close ≠ escape) (cs : List Char) :
    readInside close escape (close :: close :: cs) =
      (readInside close escape cs).map fun p => (close :: p.1, p.2) := by
  rw [readInside.eq_def]
  simp only [if_neg he, if_true]

/-- A closing delimiter that no other one follows ends the text. -/
theorem readInside_close (he : some close ≠ escape) (h : rest.head? ≠ some close) :
    readInside close escape (close :: rest) = some ([], rest) := by
  rw [readInside.eq_def]
  simp only [if_neg he, if_true]
  cases rest with
  | nil => rfl
  | cons e rest =>
    have hne : e ≠ close := fun hx => h (congrArg some hx)
    simp only [if_neg hne]

theorem readInside_escape (e c : Char) (cs : List Char) :
    readInside close (some e) (e :: c :: cs) =
      (readInside close (some e) cs).map fun p => (c :: p.1, p.2) := by
  rw [readInside.eq_def]
  simp only [if_true]

/-! ## Reading back -/

/-- **A doubled delimiter is read back.** -/
theorem readInside_double (close : Char) (s : List Char) (h : rest.head? ≠ some close) :
    readInside close none (double close s ++ close :: rest) = some (s, rest) := by
  have he (c : Char) : some c ≠ none := Option.some_ne_none c
  induction s with
  | nil => exact readInside_close (he close) h
  | cons c s ih =>
    rw [double]
    split
    case isTrue hc =>
      subst hc
      rw [List.cons_append, List.cons_append, readInside_close_close (he c), ih]
      rfl
    case isFalse hc =>
      rw [List.cons_append, readInside_cons (he c) hc, ih]
      rfl

/-- **An escape that is doubled before the delimiter is read back.** Neither doubling sees what the
other one has added, as the two characters differ. -/
theorem readInside_double_double {close escape : Char} (hne : escape ≠ close) (s : List Char)
    (h : rest.head? ≠ some close) :
    readInside close (some escape) (double close (double escape s) ++ close :: rest) =
      some (s, rest) := by
  have hclose : some close ≠ some escape := fun hx => hne (Option.some.inj hx).symm
  induction s with
  | nil => exact readInside_close hclose h
  | cons c s ih =>
    by_cases hc : c = escape
    · subst hc
      have hd : double close (double c (c :: s)) = c :: c :: double close (double c s) := by
        rw [double, if_pos rfl, double, if_neg hne, double, if_neg hne]
      rw [hd, List.cons_append, List.cons_append, readInside_escape, ih]
      rfl
    · have hescape : some c ≠ some escape := fun hx => hc (Option.some.inj hx)
      rw [double, if_neg hc, double]
      split
      case isTrue hq =>
        subst hq
        rw [List.cons_append, List.cons_append, readInside_close_close hclose, ih]
        rfl
      case isFalse hq =>
        rw [List.cons_append, readInside_cons hescape hq, ih]
        rfl

-- no doubling writes an escaped delimiter, but it is read
example : readInside '\'' (some '\\') ['a', '\\', '\'', '\'', '\'', '\'', ','] =
    some (['a', '\'', '\''], [',']) := by
  decide

/-! ## What is left -/

/-- A character before what is read adds nothing to what is left. -/
theorem exists_of_map_cons {c : Char} {r : Option (List Char × List Char)}
    (h : (r.map fun p => (c :: p.1, p.2)) = some (s, rest)) :
    ∃ t, r = some (t, rest) ∧ s = c :: t := by
  obtain ⟨p, hr, hp⟩ := Option.map_eq_some_iff.mp h
  obtain ⟨rfl, rfl⟩ := Prod.mk.inj hp
  exact ⟨p.1, hr, rfl⟩

/-- What is left is shorter. -/
theorem length_lt_of_readInside {cs : List Char} (h : readInside close escape cs = some (s, rest)) :
    rest.length < cs.length := by
  fun_induction readInside close escape cs generalizing s with
  | case1 | case2 => cases h
  | case3 _ _ _ _ ih | case5 _ _ ih | case7 _ _ _ _ ih =>
    obtain ⟨t, ht, -⟩ := exists_of_map_cons h
    have hlt := ih ht
    simp only [List.length_cons]
    omega
  | case4 | case6 =>
    cases h
    exact Nat.lt_succ_self _

end PortableSql.Text
