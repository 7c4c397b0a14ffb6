import Mathlib.Data.List.TakeWhile

/-!
# Runs of characters

A run is the longest first part of a text whose characters are all of one kind. A numeral is a run
of digits.

* `takeWhile_of_head?`, `takeWhile_append_of_head?`: a character of another kind ends a run.
* `run_append`: a run is cut off where it ends.
* **`readNat`**, **`readInt`**: the readers of numerals; `readNat_toDigits`, `readInt_toString`:
  they undo writing.
-/

namespace PortableSql.Text

variable {p : Char → Bool} {cs : List Char}

/-- No run comes first. -/
theorem takeWhile_of_head? (h : ∀ c ∈ cs.head?, p c = false) :
    cs.takeWhile p = [] ∧ cs.dropWhile p = cs := by
  cases cs with
  | nil => exact ⟨rfl, rfl⟩
  | cons c cs =>
    have hc : ¬p c = true := by simp [h c rfl]
    exact ⟨List.takeWhile_cons_of_neg hc, List.dropWhile_cons_of_neg hc⟩

/-- What comes after a text adds nothing to its run. -/
theorem takeWhile_append_of_head? (h : ∀ c ∈ cs.head?, p c = false) (as : List Char) :
    (as ++ cs).takeWhile p = as.takeWhile p := by
  induction as with
  | nil => exact (takeWhile_of_head? h).1
  | cons a as ih => rw [List.cons_append, List.takeWhile_cons, ih, List.takeWhile_cons]

/-- **A run is cut off where it ends.** -/
theorem run_append {as : List Char} (has : ∀ a ∈ as, p a = true)
    (h : ∀ c ∈ cs.head?, p c = false) :
    (as ++ cs).takeWhile p = as ∧ (as ++ cs).dropWhile p = cs := by
  obtain ⟨htake, hdrop⟩ := takeWhile_of_head? h
  rw [List.takeWhile_append_of_pos has, List.dropWhile_append_of_pos has, htake, hdrop,
    List.append_nil]
  exact ⟨rfl, rfl⟩

/-! ## Numerals -/

/-- **Reads the decimal numeral that a text starts with**: its value, and the rest of the text. -/
def readNat (cs : List Char) : Option (Nat × List Char) :=
  match cs.takeWhile Char.isDigit with
  | [] => none
  | digits => some (Nat.ofDigitChars 10 digits 0, cs.dropWhile Char.isDigit)

/-- **Reads a numeral that a minus sign may stand before.** -/
def readInt : List Char → Option (Int × List Char)
  | [] => none
  | c :: cs =>
    if c = '-' then (readNat cs).map fun p => (-(p.1 : Int), p.2)
    else (readNat (c :: cs)).map fun p => ((p.1 : Int), p.2)

theorem isDigit_of_mem_toDigits {n : Nat} : ∀ c ∈ Nat.toDigits 10 n, c.isDigit = true :=
  fun _ hc => Nat.isDigit_of_mem_toDigits (by decide) (by decide) hc

theorem toList_toString (n : Nat) : (toString n).toList = Nat.toDigits 10 n := by
  rw [Nat.toString_eq_ofList_toDigits, String.toList_ofList]

theorem readNat_toDigits (n : Nat) (h : ∀ c ∈ cs.head?, c.isDigit = false) :
    readNat (Nat.toDigits 10 n ++ cs) = some (n, cs) := by
  obtain ⟨htake, hdrop⟩ := run_append isDigit_of_mem_toDigits h
  rw [readNat, htake, hdrop]
  split
  case h_1 hnil => exact absurd hnil Nat.toDigits_ne_nil
  case h_2 => rw [Nat.ofDigitChars_ten_toDigits]

/-- **Reading undoes writing**, as long as no digit follows. -/
theorem readInt_toString (n : Int) (h : ∀ c ∈ cs.head?, c.isDigit = false) :
    readInt ((toString n).toList ++ cs) = some (n, cs) := by
  cases n with
  | ofNat n =>
    have hread := readNat_toDigits n h
    have hdigits : (toString (Int.ofNat n)).toList = Nat.toDigits 10 n := toList_toString n
    rw [hdigits]
    cases hcons : Nat.toDigits 10 n with
    | nil => exact absurd hcons Nat.toDigits_ne_nil
    | cons c digits =>
      have hc : c ≠ '-' := by
        rintro rfl
        exact absurd (isDigit_of_mem_toDigits '-' (hcons ▸ List.mem_cons_self)) (by decide)
      rw [hcons, List.cons_append] at hread
      rw [List.cons_append, readInt, if_neg hc, hread]
      rfl
  | negSucc n =>
    have hdigits : (toString (Int.negSucc n)).toList = '-' :: Nat.toDigits 10 (n + 1) := by
      rw [← toList_toString]
      exact String.toList_append
    rw [hdigits, List.cons_append, readInt, if_pos rfl, readNat_toDigits (n + 1) h]
    rfl

/-- What is left is not longer. -/
theorem length_le_of_readNat {n : Nat} {rest : List Char} (h : readNat cs = some (n, rest)) :
    rest.length ≤ cs.length := by
  rw [readNat] at h
  split at h
  case h_1 => cases h
  case h_2 =>
    obtain ⟨-, rfl⟩ := Prod.mk.inj (Option.some.inj h)
    exact List.length_dropWhile_le _ cs

theorem length_le_of_readInt {n : Int} {rest : List Char} (h : readInt cs = some (n, rest)) :
    rest.length ≤ cs.length := by
  cases cs with
  | nil => cases h
  | cons c cs =>
    rw [readInt] at h
    split at h
    all_goals
      obtain ⟨p, hread, hp⟩ := Option.map_eq_some_iff.mp h
      obtain ⟨-, rfl⟩ := Prod.mk.inj hp
    case isTrue => exact Nat.le_succ_of_le (length_le_of_readNat hread)
    case isFalse => exact length_le_of_readNat hread

end PortableSql.Text
