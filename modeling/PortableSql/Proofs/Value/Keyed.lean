import PortableSql.Keyed

/-!
# Lists in order of their keys

* `Increasing`: a list whose keys increase.
* `mem_insertKey`: what is in a list with a value put under a key.
* **`Increasing.insertKey`**: putting a value under a key keeps the order.
* `insertKey_of_forall_lt`: a value under a key beyond all others is put at the end.
-/

namespace PortableSql

section

variable {β : Type}

/-- **The keys of the list increase**, so that each occurs once. -/
def Increasing (ps : List (String × β)) : Prop := ps.Pairwise fun p q => p.1 < q.1

theorem mem_insertKey {key : String} {v : β} {ps : List (String × β)} {p : String × β}
    (h : p ∈ insertKey key v ps) : p = (key, v) ∨ p ∈ ps := by
  induction ps with
  | nil => exact .inl (List.mem_singleton.mp h)
  | cons q ps ih =>
    rw [insertKey] at h
    split at h
    case isTrue => exact List.mem_cons.mp h
    case isFalse =>
      split at h
      case isTrue => exact (List.mem_cons.mp h).imp_right (List.mem_cons_of_mem q)
      case isFalse =>
        rcases List.mem_cons.mp h with rfl | h
        · exact .inr List.mem_cons_self
        · exact (ih h).imp_right (List.mem_cons_of_mem q)

/-- **Putting a value under a key keeps the keys in order.** -/
theorem Increasing.insertKey {ps : List (String × β)} (h : Increasing ps) (key : String) (v : β) :
    Increasing (insertKey key v ps) := by
  induction ps with
  | nil => exact List.pairwise_singleton _ _
  | cons q ps ih =>
    obtain ⟨hq, hps⟩ := List.pairwise_cons.mp h
    rw [PortableSql.insertKey]
    split
    case isTrue hlt =>
      refine List.pairwise_cons.mpr ⟨List.forall_mem_cons.mpr ⟨hlt, fun p hp => ?_⟩, h⟩
      exact String.lt_trans hlt (hq p hp)
    case isFalse hlt =>
      split
      case isTrue heq =>
        subst heq
        exact List.pairwise_cons.mpr ⟨hq, hps⟩
      case isFalse hne =>
        have hgt : q.1 < key := Std.lt_of_le_of_ne (String.not_lt.mp hlt) (Ne.symm hne)
        refine List.pairwise_cons.mpr ⟨fun p hp => ?_, ih hps⟩
        rcases mem_insertKey hp with rfl | hp
        · exact hgt
        · exact hq p hp

/-- A value under a key beyond all others is put at the end. -/
theorem insertKey_of_forall_lt {key : String} (v : β) {ps : List (String × β)}
    (h : ∀ p ∈ ps, p.1 < key) : insertKey key v ps = ps ++ [(key, v)] := by
  induction ps with
  | nil => rfl
  | cons q ps ih =>
    obtain ⟨hq, hps⟩ := List.forall_mem_cons.mp h
    have hne : key ≠ q.1 := fun heq => String.lt_irrefl q.1 (heq ▸ hq)
    rw [insertKey, if_neg (String.lt_asymm hq), if_neg hne, ih hps, List.cons_append]

end

end PortableSql
