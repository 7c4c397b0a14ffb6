import Mathlib.Tactic.SplitIfs
import PortableSql.Text.Keyword

/-!
# Keywords keep out signs

A connective or operator is trimmed and put in upper case. Neither brings in an ASCII sign that is
not there before: below `A`, only the characters themselves have themselves for upper case.

* `Text.isSign`: the ASCII signs and digits before `A`.
* `Text.mem_of_mem_trim`, `Text.eq_of_mem_upperChar`: trimming and upper-casing, character by
  character.
* **`Text.mem_of_mem_keyword`**: the signs of a keyword stand in the text it is typed as.
-/

namespace PortableSql.Text

/-- The character is an ASCII sign or digit that comes before the letters. -/
def isSign (c : Char) : Bool := 0x20 ≤ c.toNat && c.toNat < 0x41

/-! ## Trimming -/

theorem mem_of_mem_dropTrailing {c : Char} {cs : List Char} (h : c ∈ dropTrailing cs) : c ∈ cs := by
  induction cs with
  | nil => exact h
  | cons d cs ih =>
    rw [dropTrailing] at h
    split at h
    · split_ifs at h
      · cases h
      · exact List.mem_cons.mpr (.inl (List.mem_singleton.mp h))
    · rcases List.mem_cons.mp h with rfl | h
      · exact List.mem_cons_self
      · exact List.mem_cons_of_mem d (ih h)

theorem mem_of_mem_trim {c : Char} {s : String} (h : c ∈ (trim s).toList) : c ∈ s.toList := by
  rw [trim, String.toList_ofList] at h
  exact (List.dropWhile_sublist _).subset (mem_of_mem_dropTrailing h)

/-! ## Upper case -/

theorem le_of_mem_expansions : ∀ e ∈ expansions, ∀ u ∈ e.2, 0x41 ≤ u := by
  decide

theorem le_of_mem_shifts : ∀ s ∈ shifts, (0x41 : Int) ≤ s.first + s.offset := by
  decide +kernel

theorem isSign_ofNat {n : Nat} (h : 0x41 ≤ n) : isSign (Char.ofNat n) = false := by
  by_cases hn : n.isValidChar
  · have hc : Char.ofNat n = Char.ofNatAux n hn := dif_pos hn
    have htoNat : (Char.ofNatAux n hn).toNat = n := rfl
    rw [hc, isSign, htoNat, decide_eq_false (Nat.not_lt.mpr h), Bool.and_false]
  · have hc : Char.ofNat n = '\x00' := dif_neg hn
    rw [hc]
    rfl

theorem eq_toUpper_of_isSign {c : Char} (h : isSign c.toUpper = true) : c.toUpper = c := by
  by_cases hc : 'a'.val ≤ c.val ∧ c.val ≤ 'z'.val
  · -- the upper case of a small letter is a letter
    have hle : 97 ≤ c.val.toNat := UInt32.le_iff_toNat_le.mp hc.1
    have hge : c.val.toNat ≤ 122 := UInt32.le_iff_toNat_le.mp hc.2
    obtain ⟨hv, hupper⟩ : ∃ hv, c.toUpper = ⟨c.val + ('A'.val - 'a'.val), hv⟩ := ⟨_, dif_pos hc⟩
    have hsum : (c.val + ('A'.val - 'a'.val)).toNat = (c.val.toNat + 4294967264) % 2 ^ 32 :=
      UInt32.toNat_add _ _
    have hletter : 0x41 ≤ (c.val + ('A'.val - 'a'.val)).toNat := by omega
    rw [hupper, isSign, Bool.and_eq_true] at h
    exact absurd (of_decide_eq_true h.2) (Nat.not_lt.mpr hletter)
  · exact dif_neg hc

/-- The only character whose upper case holds a sign is that sign. -/
theorem eq_of_mem_upperChar {c d : Char} (hs : isSign c = true) (h : c ∈ upperChar d) : c = d := by
  have hofNat {n : Nat} (hn : 0x41 ≤ n) (hc : c = Char.ofNat n) : c = d := by
    rw [hc, isSign_ofNat hn] at hs
    cases hs
  simp only [upperChar] at h
  split_ifs at h
  · obtain rfl := List.mem_singleton.mp h
    exact eq_toUpper_of_isSign hs
  · split at h
    · rename_i e us he
      obtain ⟨u, hu, rfl⟩ := List.mem_map.mp h
      exact hofNat (le_of_mem_expansions _ (List.mem_of_find?_eq_some he) u hu) rfl
    · split at h
      · rename_i s hfind
        have hle := le_of_mem_shifts s (List.mem_of_find?_eq_some hfind)
        have hfirst : s.first ≤ d.toNat := by
          have hhas := List.find?_some hfind
          simp only [Shift.has, Bool.and_eq_true, decide_eq_true_eq] at hhas
          exact hhas.1.1
        exact hofNat (by omega) (List.mem_singleton.mp h)
      · exact List.mem_singleton.mp h

/-- **The signs of a keyword stand in the text that it is typed as.** -/
theorem mem_of_mem_keyword {c : Char} {s : String} (hs : isSign c = true)
    (h : c ∈ (keyword s).toList) : c ∈ s.toList := by
  rw [keyword, toUpper, String.toList_ofList] at h
  obtain ⟨d, hd, hc⟩ := List.mem_flatMap.mp h
  rw [eq_of_mem_upperChar hs hc]
  exact mem_of_mem_trim hd

end PortableSql.Text
