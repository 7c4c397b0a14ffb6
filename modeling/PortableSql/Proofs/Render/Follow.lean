import PortableSql.Proofs.Render.Walk
import PortableSql.Proofs.Value.Trail

/-!
# Walks follow trails

The walk through a value in a dialect goes along the trail of the value, which no dialect changes.

* `Leaf.draft`: the draft of a leaf in a dialect.
* **`Trail.FollowedBy`**: what a trail says of a walk; each step of a walk keeps it.
* **`Value.trail_followedBy`**: the walk through a value follows its trail.
* `Value.walk_congr`: two dialects that write the leaves alike write the value alike.
-/

namespace PortableSql

/-- The draft of a leaf. -/
def Leaf.draft (d : Dialect) : Leaf → Draft
  | .literal l => .literal l .nil
  | .identifier n => .text (d.identifierText n) .nil
  | .column n => .text (d.columnText n) .nil
  | .table n => .text (d.tableText n) .nil
  | .raw sql => .text sql .nil

/-- **A walk in every dialect follows a trail**: it stops where the trail ends and meets the
literals of the trail, and the dialect counts for nothing but the drafts of the leaves. -/
structure Trail.FollowedBy (t : Trail) (w : Dialect → Walk) : Prop where
  stop : ∀ d, (w d).stop = t.stop
  literals : ∀ d, (w d).draft.literals = t.literals
  congr : ∀ d e, (∀ x ∈ t.leaves, x.draft d = x.draft e) → w d = w e

namespace Trail

variable {t u : Trail} {w k : Dialect → Walk}

theorem followedBy_leaf (x : Leaf) : (leaf x).FollowedBy fun d => ⟨x.draft d, none⟩ where
  stop _ := rfl
  literals d := by cases x <;> rfl
  congr d e h := by rw [h x List.mem_cons_self]

theorem followedBy_text (s : String) : empty.FollowedBy fun _ => .text s where
  stop _ := rfl
  literals _ := rfl
  congr _ _ _ := rfl

theorem followedBy_halt (e : RenderError) : (halt e).FollowedBy fun _ => .halt e where
  stop _ := rfl
  literals _ := rfl
  congr _ _ _ := rfl

theorem FollowedBy.andThen (ht : t.FollowedBy w) (hu : u.FollowedBy k) :
    (t.andThen u).FollowedBy fun d => (w d).andThen (k d) := by
  cases hs : t.stop with
  | none =>
    have hw (d : Dialect) : (w d).andThen (k d) = ⟨(w d).draft ++ (k d).draft, (k d).stop⟩ := by
      rw [Walk.andThen, ht.stop, hs]
    refine ⟨fun d => ?_, fun d => ?_, fun d e h => ?_⟩
    · rw [hw, andThen_of_stop_eq_none hs]
      exact hu.stop d
    · rw [hw, literals_andThen_of_stop_eq_none hs, ← ht.literals d, ← hu.literals d]
      exact Draft.literals_append _ _
    · rw [andThen_of_stop_eq_none hs] at h
      obtain ⟨h₁, h₂⟩ := List.forall_mem_append.mp h
      rw [ht.congr d e h₁, hu.congr d e h₂]
  | some e =>
    -- nothing comes after the end of the trail
    have hw : (fun d => (w d).andThen (k d)) = w := by
      funext d
      rw [Walk.andThen, ht.stop, hs]
    rw [hw, andThen_of_stop_eq_some hs]
    exact ht

/-! ### Templates and sequences

The parts are values with a trail `f` and a walk `g`. -/

variable {f : Value → Trail} {g : Dialect → Value → Walk}

theorem followedBy_fillFrom (template : String) {named : List (String × Value)}
    (hn : ∀ p ∈ named, (f p.2).FollowedBy fun d => g d p.2) (ps : List Piece) (used : Nat)
    (left : List Value) (hl : ∀ v ∈ left, (f v).FollowedBy fun d => g d v) :
    (fillFrom template (named.map fun p => (p.1, f p.2)) ps used (left.map f)).FollowedBy fun d =>
      Walk.fillFrom template (named.map fun p => (p.1, g d p.2)) ps used (left.map (g d)) := by
  induction ps generalizing used left with
  | nil =>
    cases left with
    | nil => exact ⟨fun _ => rfl, fun _ => rfl, fun _ _ _ => rfl⟩
    | cons v left =>
      simp only [fillFrom, Walk.fillFrom, List.map_cons, List.length_cons, List.length_map]
      exact followedBy_halt _
  | cons p ps ih =>
    cases p with
    | text s =>
      simp only [fillFrom, Walk.fillFrom]
      exact (followedBy_text s).andThen (ih used left hl)
    | positional =>
      cases left with
      | nil => exact followedBy_halt _
      | cons v left =>
        obtain ⟨hv, hl⟩ := List.forall_mem_cons.mp hl
        simp only [fillFrom, Walk.fillFrom, List.map_cons]
        exact hv.andThen (ih (used + 1) left hl)
    | named token =>
      simp only [fillFrom, Walk.fillFrom, lookup_map_values]
      cases h : named.lookup token with
      | none => exact followedBy_halt _
      | some v => exact (hn _ (mem_of_lookup h)).andThen (ih used left hl)

theorem followedBy_each {items : List Value} (h : ∀ v ∈ items, (f v).FollowedBy fun d => g d v) :
    (∀ d, (Walk.each (items.map (g d))).2 = (inOrder (items.map f)).stop) ∧
      (∀ d, (Walk.each (items.map (g d))).1.flatMap Draft.literals =
        (inOrder (items.map f)).literals) ∧
      ∀ d e, (∀ x ∈ (inOrder (items.map f)).leaves, x.draft d = x.draft e) →
        Walk.each (items.map (g d)) = Walk.each (items.map (g e)) := by
  induction items with
  | nil => exact ⟨fun _ => rfl, fun _ => rfl, fun _ _ _ => rfl⟩
  | cons v items ih =>
    obtain ⟨hv, hi⟩ := List.forall_mem_cons.mp h
    obtain ⟨hstop, hliterals, hcongr⟩ := ih hi
    simp only [List.map_cons, inOrder, Walk.each, hv.stop]
    cases hs : (f v).stop with
    | none =>
      refine ⟨fun d => ?_, fun d => ?_, fun d e h => ?_⟩
      · rw [andThen_of_stop_eq_none hs]
        exact hstop d
      · rw [literals_andThen_of_stop_eq_none hs, ← hv.literals d, ← hliterals d]
        exact List.flatMap_cons
      · rw [andThen_of_stop_eq_none hs] at h
        obtain ⟨h₁, h₂⟩ := List.forall_mem_append.mp h
        rw [hv.congr d e h₁, hcongr d e h₂]
    | some e =>
      rw [andThen_of_stop_eq_some hs]
      refine ⟨fun d => hs.symm, fun d => ?_, fun d e h => ?_⟩
      · rw [← hv.literals d]
        exact List.flatMap_singleton _ _
      · rw [hv.congr d e h]

theorem followedBy_sequence {items : List Value}
    (h : ∀ v ∈ items, (f v).FollowedBy fun d => g d v) :
    (inOrder (items.map f)).FollowedBy fun d => .sequence (items.map (g d)) := by
  obtain ⟨hstop, hliterals, hcongr⟩ := followedBy_each h
  refine ⟨hstop, fun d => ?_, fun d e hd => ?_⟩
  · rw [← hliterals d]
    exact Draft.literals_joinFilled ", " _
  · rw [Walk.sequence, hcongr d e hd, Walk.sequence]

end Trail

/-- **The walk through a value follows its trail.** -/
theorem Value.trail_followedBy (v : Value) : v.trail.FollowedBy (fun d => v.walk d) := by
  induction v with
  | literal l => exact Trail.followedBy_leaf (.literal l)
  | identifier n => exact Trail.followedBy_leaf (.identifier n)
  | column n => exact Trail.followedBy_leaf (.column n)
  | table n => exact Trail.followedBy_leaf (.table n)
  | sequence items ih =>
    simp only [Value.trail_sequence, Value.walk_sequence]
    exact Trail.followedBy_sequence ih
  | expression template positional named ihp ihn =>
    simp only [Value.trail_expression, Value.walk_expression]
    split
    · exact Trail.followedBy_leaf (.raw template)
    · exact Trail.followedBy_fillFrom template ihn _ 0 positional ihp

/-- Two dialects that write the leaves alike write the value alike. -/
theorem Value.walk_congr {v : Value} {d e : Dialect}
    (h : ∀ x ∈ v.trail.leaves, x.draft d = x.draft e) : v.walk d = v.walk e :=
  v.trail_followedBy.congr d e h

end PortableSql
