import PortableSql.Savepoint.NameStack

/-!
# The index of a name stack

* `NameStack.positionsOf`: the positions of a name, read off the entries.
* **`NameStack.Indexed`**: the index holds these positions for every name. Taking and putting
  entries preserves it.
* `NameStack.Indexed.lastPosition_eq`, `NameStack.Indexed.positions_eq`: what is asked of the
  index is an answer about the entries.
-/

namespace PortableSql

namespace PositionIndex

/-- The positions of a name as they stand in an index, in which no list is empty. -/
def slot : List Nat → Option (List Nat)
  | [] => none
  | p :: ps => some (p :: ps)

theorem getD_slot (ps : List Nat) : (slot ps).getD [] = ps := by
  cases ps <;> rfl

theorem bind_head?_slot (ps : List Nat) : (slot ps).bind List.head? = ps.head? := by
  cases ps <;> rfl

theorem withoutLast_slot (p : Nat) (ps : List Nat) : withoutLast (slot (p :: ps)) = slot ps := by
  cases ps <;> rfl

theorem getElem?_add (ix : PositionIndex) (name : String) (position : Nat) (n : String) :
    (ix.add name position)[n]? =
      if name = n then some (position :: ix[name]?.getD []) else ix[n]? := by
  simp only [add, Std.ExtTreeMap.getElem?_alter, Std.compare_eq_iff_eq]

theorem getElem?_dropLast (ix : PositionIndex) (name n : String) :
    (ix.dropLast name)[n]? = if name = n then withoutLast ix[name]? else ix[n]? := by
  simp only [dropLast, Std.ExtTreeMap.getElem?_alter, Std.compare_eq_iff_eq]

end PositionIndex

namespace NameStack

open PositionIndex

/-- The positions of the entries with a name. -/
def positionsOf (entries : List (String × Nat)) (name : String) : List Nat :=
  (entries.filter fun e => e.1 = name).map (·.2)

theorem positionsOf_cons_self (name : String) (position : Nat) (entries : List (String × Nat)) :
    positionsOf ((name, position) :: entries) name = position :: positionsOf entries name := by
  simp [positionsOf]

theorem positionsOf_cons_of_ne {name n : String} (h : name ≠ n) (position : Nat)
    (entries : List (String × Nat)) :
    positionsOf ((name, position) :: entries) n = positionsOf entries n := by
  simp [positionsOf, h]

theorem positionsOf_append (as bs : List (String × Nat)) (name : String) :
    positionsOf (as ++ bs) name = positionsOf as name ++ positionsOf bs name := by
  rw [positionsOf, List.filter_append, List.map_append, positionsOf, positionsOf]

/-- **The index holds the positions of every name.** -/
def Indexed (s : NameStack) : Prop := ∀ n, s.index[n]? = slot (positionsOf s.entries n)

theorem indexed_empty : ({} : NameStack).Indexed := by
  intro n
  exact Std.ExtTreeMap.getElem?_empty

theorem Indexed.push {s : NameStack} (h : s.Indexed) (name : String) (position : Nat) :
    (s.push name position).Indexed := by
  intro n
  rw [NameStack.push, getElem?_add, h name, getD_slot]
  by_cases hn : name = n
  · subst hn
    rw [if_pos rfl, positionsOf_cons_self]
    rfl
  · rw [if_neg hn, positionsOf_cons_of_ne hn, h n]

/-- The index follows when the top entry is taken. -/
theorem Indexed.dropLast {name : String} {position : Nat} {entries : List (String × Nat)}
    {ix : PositionIndex} (h : Indexed ⟨(name, position) :: entries, ix⟩) :
    Indexed ⟨entries, ix.dropLast name⟩ := by
  intro n
  rw [getElem?_dropLast]
  by_cases hn : name = n
  · subst hn
    rw [if_pos rfl, h name, positionsOf_cons_self, withoutLast_slot]
  · rw [if_neg hn, h n, positionsOf_cons_of_ne hn]

theorem Indexed.popEntries (target : Nat) {entries : List (String × Nat)} {ix : PositionIndex}
    (h : Indexed ⟨entries, ix⟩) : (popEntries target entries ix).Indexed := by
  induction entries generalizing ix with
  | nil => exact h
  | cons e entries ih =>
    rw [NameStack.popEntries]
    split
    · exact h
    · exact ih h.dropLast

theorem entries_popEntries (target : Nat) (entries : List (String × Nat)) (ix : PositionIndex) :
    (popEntries target entries ix).entries = entries.dropWhile fun e => target ≤ e.2 := by
  induction entries generalizing ix with
  | nil => rfl
  | cons e entries ih =>
    by_cases he : e.2 < target
    · rw [popEntries, if_pos he, List.dropWhile_cons_of_neg (by simp [he])]
    · rw [popEntries, if_neg he, List.dropWhile_cons_of_pos (by simpa using he), ih]

/-- Exactly the entries from the target on are taken, if they are on top of all others. -/
theorem entries_popFrom {s : NameStack} {target : Nat} {above below : List (String × Nat)}
    (hs : s.entries = above ++ below) (ha : ∀ e ∈ above, target ≤ e.2)
    (hb : ∀ e ∈ below, e.2 < target) : (s.popFrom target).entries = below := by
  rw [popFrom, entries_popEntries, hs, List.dropWhile_append_of_pos (by simpa using ha)]
  cases below with
  | nil => rfl
  | cons e below =>
    have he : e.2 < target := hb e List.mem_cons_self
    rw [List.dropWhile_cons_of_neg (by simp [he])]

variable {s : NameStack} (h : s.Indexed)
include h

theorem Indexed.popFrom (target : Nat) : (s.popFrom target).Indexed := h.popEntries target

theorem Indexed.lastPosition_eq (name : String) :
    s.lastPosition name = (positionsOf s.entries name).head? := by
  rw [lastPosition, h name, bind_head?_slot]

theorem Indexed.positions_eq (name : String) :
    s.positions name = (positionsOf s.entries name).reverse := by
  rw [positions, Std.ExtTreeMap.getD_eq_getD_getElem?, h name, getD_slot]

end NameStack

end PortableSql
