import PortableSql.Proofs.Name.Path

/-!
# The spelling of a name

A name is spelled by its segments with dots between them, and is the name that its spelling stands
for as long as no segment holds a dot.

* `Qualifier.IsFlat`: no qualifier, or segments.
* `Name.segments`, `Name.spelling`: the text of a name.
* **`Name.Spelled`**: the names that a text stands for.
* `Name.splitDots_join`: the parts of a text put together from parts.
* **`Name.dotted_spelling`**, **`Name.spelled_dotted`**: exactly these names have a spelling.
-/

namespace PortableSql

/-- There is no qualifier, or it is a list of segments that is not empty. -/
def Qualifier.IsFlat (q : Qualifier) : Prop := q = .none ∨ ∃ parts, parts ≠ [] ∧ q = .segments parts

namespace Name

/-- The segments of the name, as far as they are given as texts. -/
def segments (n : Name) : List String :=
  match n.qualifier with
  | .segments parts => parts ++ [n.base]
  | _ => [n.base]

/-- **The segments of the name, with dots between them.** -/
def spelling (n : Name) : String := Text.join "." n.segments

/-- **A name without a qualifier or with segments before its base**, none of which holds a dot. -/
structure Spelled (n : Name) : Prop where
  flat : n.qualifier.IsFlat
  dotless : ∀ s ∈ n.segments, '.' ∉ s.toList

/-! ## The parts of a text -/

theorem splitDots_of_dotless {cs : List Char} (h : '.' ∉ cs) : splitDots cs = [cs] := by
  rw [splitDots_eq_splitOn]
  exact List.splitOn_eq_singleton h

theorem splitDots_append_dot {cs : List Char} (h : '.' ∉ cs) (rest : List Char) :
    splitDots (cs ++ '.' :: rest) = cs :: splitDots rest := by
  induction cs with
  | nil => rfl
  | cons c cs ih =>
    have hc : c ≠ '.' := Ne.symm (List.ne_of_not_mem_cons h)
    rw [List.cons_append, splitDots, if_neg hc, ih (List.not_mem_of_not_mem_cons h)]

/-- The parts of a text put together from parts without dots. -/
theorem splitDots_join {parts : List String} (hne : parts ≠ [])
    (h : ∀ s ∈ parts, '.' ∉ s.toList) :
    splitDots (Text.join "." parts).toList = parts.map String.toList := by
  induction parts with
  | nil => exact absurd rfl hne
  | cons s parts ih =>
    obtain ⟨hs, hparts⟩ := List.forall_mem_cons.mp h
    cases parts with
    | nil => exact splitDots_of_dotless hs
    | cons t parts =>
      have hjoin : (Text.join "." (s :: t :: parts)).toList =
          s.toList ++ '.' :: (Text.join "." (t :: parts)).toList := by
        rw [Text.join, String.toList_append, String.toList_append, List.append_assoc]
        rfl
      rw [hjoin, splitDots_append_dot hs, ih (List.cons_ne_nil t parts) hparts]
      rfl

/-- No part of a text holds a dot. -/
theorem dotless_of_mem_splitDots {cs part : List Char} (h : part ∈ splitDots cs) : '.' ∉ part := by
  induction cs generalizing part with
  | nil => rw [List.mem_singleton.mp h]; exact List.not_mem_nil
  | cons c cs ih =>
    rw [splitDots] at h
    split at h
    case isTrue =>
      rcases List.mem_cons.mp h with rfl | h
      · exact List.not_mem_nil
      · exact ih h
    case isFalse hc =>
      have hcons : ∀ {p : List Char}, '.' ∉ p → '.' ∉ c :: p := fun hp =>
        List.not_mem_cons_of_ne_of_not_mem (Ne.symm hc) hp
      cases hsplit : splitDots cs with
      | nil =>
        rw [hsplit] at h
        rw [List.mem_singleton.mp h]
        exact hcons List.not_mem_nil
      | cons first parts =>
        rw [hsplit] at h ih
        rcases List.mem_cons.mp h with rfl | h
        · exact hcons (ih List.mem_cons_self)
        · exact ih (List.mem_cons_of_mem first h)

/-! ## Names -/

/-- A name with a flat qualifier is given by its segments. -/
theorem ofSegments_segments {n : Name} (h : n.qualifier.IsFlat) : ofSegments n.segments = n := by
  obtain ⟨base, qualifier⟩ := n
  rcases h with rfl | ⟨parts, hne, rfl⟩
  · rfl
  · obtain ⟨outer, last, rfl⟩ := (List.eq_nil_or_concat parts).resolve_left hne
    simp [ofSegments, segments]

/-- **A spelled name is the name that its spelling stands for.** -/
theorem dotted_spelling {n : Name} (h : n.Spelled) : dotted n.spelling = n := by
  have hne : n.segments ≠ [] := by
    unfold segments
    split <;> simp
  rw [dotted, spelling, splitDots_join hne h.dotless, List.map_map]
  have hid : n.segments.map (String.ofList ∘ String.toList) = n.segments := by
    simp
  rw [hid, ofSegments_segments h.flat]

theorem segments_ofSegments {ss : List String} (h : ss ≠ []) :
    (ofSegments ss).qualifier.IsFlat ∧ (ofSegments ss).segments = ss := by
  obtain ⟨outer, base, rfl⟩ := (List.eq_nil_or_concat ss).resolve_left h
  rcases List.eq_nil_or_concat outer with rfl | ⟨more, last, rfl⟩
  · exact ⟨.inl rfl, rfl⟩
  · simp [ofSegments, segments, Qualifier.IsFlat]

/-- **The name that a text stands for is spelled.** -/
theorem spelled_dotted (text : String) : (dotted text).Spelled := by
  have hne : (splitDots text.toList).map String.ofList ≠ [] := by
    rw [splitDots_eq_splitOn]
    exact fun h => List.splitOn_ne_nil '.' _ (List.map_eq_nil_iff.mp h)
  obtain ⟨hflat, hsegments⟩ := segments_ofSegments hne
  refine ⟨hflat, fun s hs => ?_⟩
  rw [dotted, hsegments] at hs
  obtain ⟨part, hpart, rfl⟩ := List.mem_map.mp hs
  rw [String.toList_ofList]
  exact dotless_of_mem_splitDots hpart

end Name

end PortableSql
