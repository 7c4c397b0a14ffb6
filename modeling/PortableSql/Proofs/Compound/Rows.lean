import Mathlib.Data.List.Dedup
import Mathlib.Data.List.Perm.Lattice
import PortableSql.Statement.Compound

/-!
# Rows of combined queries

* **`Combination.rows`**: the rows that an operator makes of those of two queries.
* **`Combination.rows_assoc`**: all operators but `EXCEPT` are associative.
-/

namespace PortableSql

variable {Row : Type} [DecidableEq Row]

/-- **The rows of two queries with the operator between them.** With `ALL` rows are counted, and
without it none occurs twice. -/
def Combination.rows (all : Bool) : Combination → List Row → List Row → List Row
  | .union, as, bs => if all then as ++ bs else (as ++ bs).dedup
  | .intersect, as, bs => if all then as.bagInter bs else (as.filter (· ∈ bs)).dedup
  | .except, as, bs => if all then as.diff bs else (as.filter (· ∉ bs)).dedup

/-! ## Without duplicates -/

theorem dedup_append_dedup (as bs : List Row) : (as ++ bs.dedup).dedup = (as ++ bs).dedup := by
  rw [List.dedup_append, List.dedup_append, List.dedup_idem]

theorem dedup_dedup_append (as bs : List Row) : (as.dedup ++ bs).dedup = (as ++ bs).dedup := by
  induction as with
  | nil => rfl
  | cons a as ih =>
    by_cases ha : a ∈ as
    · have hmem : a ∈ as ++ bs := List.mem_append_left _ ha
      rw [List.dedup_cons_of_mem ha, ih, List.cons_append, List.dedup_cons_of_mem hmem]
    · rw [List.dedup_cons_of_notMem ha, List.cons_append, List.cons_append, List.dedup_cons,
        List.dedup_cons, ih]
      simp only [List.mem_append, List.mem_dedup]

theorem filter_dedup (p : Row → Bool) (as : List Row) :
    as.dedup.filter p = (as.filter p).dedup := by
  induction as with
  | nil => rfl
  | cons a as ih =>
    rw [List.dedup_cons, List.filter_cons]
    by_cases hp : p a = true
    · simp only [hp, if_true, List.dedup_cons, List.mem_filter, and_true]
      split_ifs
      · exact ih
      · rw [List.filter_cons_of_pos hp, ih]
    · rw [if_neg hp]
      split_ifs
      · exact ih
      · rw [List.filter_cons_of_neg hp, ih]

/-! ## Counted -/

theorem bagInter_assoc (as bs cs : List Row) :
    (as.bagInter bs).bagInter cs = as.bagInter (bs.bagInter cs) := by
  induction as generalizing bs cs with
  | nil => simp only [List.nil_bagInter]
  | cons a as ih =>
    -- only how often a row occurs on the right matters
    by_cases hb : a ∈ bs
    · by_cases hc : a ∈ cs
      · have hmem : a ∈ bs.bagInter cs := List.mem_bagInter.mpr ⟨hb, hc⟩
        have hperm : ((bs.erase a).bagInter (cs.erase a)).Perm ((bs.bagInter cs).erase a) := by
          refine List.perm_iff_count.mpr fun b => ?_
          simp only [List.count_bagInter, List.count_erase]
          omega
        rw [List.cons_bagInter_of_mem _ hb, List.cons_bagInter_of_mem _ hc,
          List.cons_bagInter_of_mem _ hmem, ih, hperm.bagInter_left]
      · have hmem : a ∉ bs.bagInter cs := fun h => hc (List.mem_bagInter.mp h).2
        have hperm : ((bs.erase a).bagInter cs).Perm (bs.bagInter cs) := by
          refine List.perm_iff_count.mpr fun b => ?_
          rw [List.count_bagInter, List.count_bagInter, List.count_erase]
          split_ifs with h
          · obtain rfl := eq_of_beq h
            rw [List.count_eq_zero.mpr hc, Nat.min_zero, Nat.min_zero]
          · rfl
        rw [List.cons_bagInter_of_mem _ hb, List.cons_bagInter_of_not_mem _ hc,
          List.cons_bagInter_of_not_mem _ hmem, ih, hperm.bagInter_left]
    · have hmem : a ∉ bs.bagInter cs := fun h => hb (List.mem_bagInter.mp h).1
      rw [List.cons_bagInter_of_not_mem _ hb, List.cons_bagInter_of_not_mem _ hmem, ih]

/-- **All operators but `EXCEPT` are associative.** -/
theorem Combination.rows_assoc {o : Combination} (ho : o ≠ .except) (all : Bool)
    (as bs cs : List Row) :
    o.rows all (o.rows all as bs) cs = o.rows all as (o.rows all bs cs) := by
  cases o with
  | union =>
    cases all with
    | true => exact List.append_assoc as bs cs
    | false =>
      change ((as ++ bs).dedup ++ cs).dedup = (as ++ (bs ++ cs).dedup).dedup
      rw [dedup_dedup_append, dedup_append_dedup, List.append_assoc]
  | intersect =>
    cases all with
    | true => exact bagInter_assoc as bs cs
    | false =>
      change ((as.filter (· ∈ bs)).dedup.filter (· ∈ cs)).dedup =
        (as.filter (· ∈ (bs.filter (· ∈ cs)).dedup)).dedup
      rw [filter_dedup, List.dedup_idem, List.filter_filter]
      congr 1
      refine List.filter_congr fun a _ => ?_
      have hmem : a ∈ (bs.filter (· ∈ cs)).dedup ↔ a ∈ bs ∧ a ∈ cs := by
        rw [List.mem_dedup, List.mem_filter, decide_eq_true_eq]
      rw [decide_eq_decide.mpr hmem, Bool.decide_and, Bool.and_comm]
  | except => exact absurd rfl ho

-- rows that come back after a difference: `EXCEPT` is not associative
example :
    Combination.except.rows true (Combination.except.rows true [1] [1]) [1] = ([] : List Nat) ∧
      Combination.except.rows true [1] (Combination.except.rows true [1] [1]) = [1] := by
  decide

end PortableSql
