import Mathlib.Data.List.Chain

/-!
# Lists in levels

A list may be divided into sorted levels in several ways. There is one way only where every boundary
is a place at which the order breaks.

* **`Breaks`**, **`Held`**: the order breaks between levels; no element can move to another level.
* `forall_of_not_breaks`: where the order does not break, two levels are sorted together.
* `Held.cases`: held levels are all empty, or the order breaks at each boundary.
* **`Held.eq_of_flatten_eq`**: sorted levels with the same elements are the held ones, if there are
  as many.
-/

namespace PortableSql

variable {α : Type} {r : α → α → Prop}

/-- The order breaks between the two levels: the first element of one does not come after the last
element of the other. -/
def Breaks (r : α → α → Prop) (l m : List α) : Prop :=
  ∃ a ∈ l.getLast?, ∃ b ∈ m.head?, ¬r a b

/-- **Nothing can move between levels**: at each boundary both levels are empty, or the order breaks
there. -/
def Held (r : α → α → Prop) (ls : List (List α)) : Prop :=
  ls.IsChain fun l m => l = [] ∧ m = [] ∨ Breaks r l m

instance [DecidableEq α] [DecidableRel r] (ls : List (List α)) : Decidable (Held r ls) := by
  unfold Held Breaks
  infer_instance

theorem held_concat {ls : List (List α)} {m : List α} :
    Held r (ls ++ [m]) ↔ Held r ls ∧ ∀ l ∈ ls.getLast?, l = [] ∧ m = [] ∨ Breaks r l m := by
  simp [Held, List.isChain_append]

/-- Where the order does not break, the sorted levels are sorted together. -/
theorem forall_of_not_breaks (htrans : ∀ a b c, r a b → r b c → r a c) {l m : List α}
    (hl : l.Pairwise r) (hm : m.Pairwise r) (h : ¬Breaks r l m) : ∀ a ∈ l, ∀ b ∈ m, r a b := by
  intro a ha b hb
  obtain ⟨l, last, rfl⟩ := (List.eq_nil_or_concat l).resolve_left (List.ne_nil_of_mem ha)
  obtain ⟨first, m, rfl⟩ := List.exists_cons_of_ne_nil (List.ne_nil_of_mem hb)
  rw [List.concat_eq_append] at hl ha h
  have hboundary : r last first := by
    by_contra hbreaks
    exact h ⟨last, by simp, first, rfl, hbreaks⟩
  have hlast : r a first := by
    rcases List.mem_append.mp ha with ha | ha
    · exact htrans _ _ _
        ((List.pairwise_append.mp hl).2.2 a ha last (List.mem_singleton_self last)) hboundary
    · rwa [List.mem_singleton.mp ha]
  rcases List.mem_cons.mp hb with rfl | hb
  · exact hlast
  · exact htrans _ _ _ hlast ((List.pairwise_cons.mp hm).1 b hb)

theorem Breaks.ne_nil {l m : List α} (h : Breaks r l m) : l ≠ [] ∧ m ≠ [] := by
  obtain ⟨a, ha, b, hb, -⟩ := h
  constructor
  · rintro rfl
    cases ha
  · rintro rfl
    cases hb

/-- **Held levels are all empty, or the order breaks at each boundary.** -/
theorem Held.cases {ls : List (List α)} (h : Held r ls) :
    (∀ l ∈ ls, l = []) ∨ (∀ l ∈ ls, l ≠ []) ∧ ls.IsChain (Breaks r) := by
  induction ls with
  | nil => exact .inl fun l hl => nomatch hl
  | cons l ls ih =>
    cases ls with
    | nil =>
      by_cases hl : l = []
      · exact .inl (List.forall_mem_singleton.mpr hl)
      · exact .inr ⟨List.forall_mem_singleton.mpr hl, List.isChain_singleton l⟩
    | cons m ls =>
      obtain ⟨hboundary, hrest⟩ := List.isChain_cons_cons.mp h
      rcases hboundary with ⟨rfl, rfl⟩ | hbreaks
      · rcases ih hrest with hnil | ⟨hne, -⟩
        · exact .inl (List.forall_mem_cons.mpr ⟨rfl, hnil⟩)
        · exact absurd rfl (hne [] List.mem_cons_self)
      · rcases ih hrest with hnil | ⟨hne, hchain⟩
        · exact absurd (hnil m List.mem_cons_self) hbreaks.ne_nil.2
        · exact .inr ⟨List.forall_mem_cons.mpr ⟨hbreaks.ne_nil.1, hne⟩,
            List.isChain_cons_cons.mpr ⟨hbreaks, hchain⟩⟩

/-- The levels after the first one begin where the order breaks. -/
theorem exists_head?_flatten {l : List α} {ls : List (List α)}
    (h : (l :: ls).IsChain (Breaks r)) (hne : ls.flatten ≠ []) :
    Breaks r l ls.flatten := by
  cases ls with
  | nil => exact absurd rfl hne
  | cons m ls =>
    obtain ⟨⟨a, ha, b, hb, hab⟩, -⟩ := List.isChain_cons_cons.mp h
    refine ⟨a, ha, b, ?_, hab⟩
    obtain ⟨m', rfl⟩ := List.head?_eq_some_iff.mp hb
    rfl

/-- The end of a level breaks off as the whole level does. -/
theorem isChain_breaks_of_append {k z : List α} {ls : List (List α)} (hz : z ≠ [])
    (h : ((k ++ z) :: ls).IsChain (Breaks r)) : (z :: ls).IsChain (Breaks r) := by
  refine List.isChain_cons.mpr ⟨fun m hm => ?_, h.tail⟩
  obtain ⟨a, ha, hb⟩ := (List.isChain_cons.mp h).1 m hm
  rw [List.getLast?_append_of_ne_nil _ hz] at ha
  exact ⟨a, ha, hb⟩

/-- **Levels at whose boundaries the order breaks are fewest**: no fewer sorted levels have the same
elements, and only these levels if they are as many. -/
theorem eq_of_breaks {ls ms : List (List α)} (hne : ∀ l ∈ ls, l ≠ [])
    (hls : ls.IsChain (Breaks r)) (hms : ∀ m ∈ ms, m.IsChain r) (h : ls.flatten = ms.flatten) :
    ls.length ≤ ms.length ∧ (ls.length = ms.length → ls = ms) := by
  induction ms generalizing ls with
  | nil =>
    cases ls with
    | nil => exact ⟨Nat.le_refl _, fun _ => rfl⟩
    | cons l ls =>
      obtain ⟨hl, -⟩ := List.append_eq_nil_iff.mp h
      exact absurd hl (hne l List.mem_cons_self)
  | cons m ms ih =>
    obtain ⟨hm, hms⟩ := List.forall_mem_cons.mp hms
    cases ls with
    | nil => exact ⟨Nat.zero_le _, fun hlength => nomatch hlength⟩
    | cons l ls =>
      obtain ⟨-, hls'⟩ := List.forall_mem_cons.mp hne
      have hsame (hlm : l = m) (hrest : ls.flatten = ms.flatten) :
          (l :: ls).length ≤ (m :: ms).length ∧
            ((l :: ls).length = (m :: ms).length → l :: ls = m :: ms) := by
        obtain ⟨hle, heq⟩ := ih hls' hls.tail hms hrest
        refine ⟨Nat.succ_le_succ hle, fun hlength => ?_⟩
        rw [hlm, heq (Nat.succ.inj hlength)]
      rw [List.flatten_cons, List.flatten_cons, List.append_eq_append_iff] at h
      rcases h with ⟨z, rfl, hz⟩ | ⟨z, rfl, hz⟩
      · by_cases hnil : z = []
        · subst hnil
          exact hsame (List.append_nil l).symm hz
        · -- the sorted level would go on where the order breaks
          have hflatten : ls.flatten ≠ [] := by simp [hz, hnil]
          obtain ⟨a, ha, b, hb, hab⟩ := exists_head?_flatten hls hflatten
          rw [hz, List.head?_append_of_ne_nil _ hnil] at hb
          exact absurd ((List.isChain_append.mp hm).2.2 a ha b hb) hab
      · by_cases hnil : z = []
        · subst hnil
          exact hsame (List.append_nil m) hz.symm
        · -- the rest of the level is divided among fewer levels than are left
          obtain ⟨hle, -⟩ := ih (List.forall_mem_cons.mpr ⟨hnil, hls'⟩)
            (isChain_breaks_of_append hnil hls) hms hz.symm
          simp only [List.length_cons] at hle ⊢
          omega

/-- **Sorted levels are the held ones** with the same elements, if there are as many. -/
theorem Held.eq_of_flatten_eq {ls ms : List (List α)} (hls : Held r ls)
    (hms : ∀ m ∈ ms, m.IsChain r) (hlength : ls.length = ms.length)
    (h : ls.flatten = ms.flatten) : ls = ms := by
  rcases hls.cases with hnil | ⟨hne, hchain⟩
  · have hflatten : ms.flatten = [] := h ▸ List.flatten_eq_nil_iff.mpr hnil
    rw [List.eq_replicate_of_mem hnil,
      List.eq_replicate_of_mem (List.flatten_eq_nil_iff.mp hflatten), hlength]
  · exact (eq_of_breaks hne hchain hms h).2 hlength

end PortableSql
