import PortableSql.Literal
import PortableSql.Text.Join

/-!
# Drafts

A draft is a rendering whose literals still stand in their places, unwritten. The two renderers
write the same drafts, one with quoted literals and the other with placeholders for marks.

* **`Draft`**, `Draft.literals`; `Draft.write`: the text with given marks for the literals.
* `Draft.isBlank`, `Draft.joinFilled`: the joining of sequences, on drafts.
* `Text.weave`, `Draft.segments`; **`Draft.weave_segments`**: a written draft is its segments of
  text with the marks between them.
-/

namespace PortableSql

/-- **Text with literals in it.** -/
inductive Draft where
  | nil
  | text (s : String) (rest : Draft)
  | literal (l : Literal) (rest : Draft)

namespace Draft

/-- One draft after another. -/
def append : Draft → Draft → Draft
  | nil, b => b
  | text s a, b => text s (a.append b)
  | literal l a, b => literal l (a.append b)

instance : Append Draft := ⟨append⟩

@[simp] theorem nil_append (b : Draft) : nil ++ b = b := rfl

@[simp] theorem text_append (s : String) (a b : Draft) : text s a ++ b = text s (a ++ b) := rfl

@[simp] theorem literal_append (l : Literal) (a b : Draft) :
    literal l a ++ b = literal l (a ++ b) := rfl

/-- The literals of a draft, in order. -/
def literals : Draft → List Literal
  | nil => []
  | text _ d => d.literals
  | literal l d => l :: d.literals

@[simp] theorem literals_append (a b : Draft) : (a ++ b).literals = a.literals ++ b.literals := by
  induction a with
  | nil => rfl
  | text s a ih => exact ih
  | literal l a ih => exact congrArg (l :: ·) ih

/-- The draft with a mark in the place of each literal. -/
def write : Draft → List String → String
  | nil, _ => ""
  | text s d, marks => s ++ d.write marks
  | literal _ d, mark :: marks => mark ++ d.write marks
  | literal _ d, [] => d.write []

/-! ## Joining -/

/-- The draft is written as the empty text, whatever the marks. -/
def isBlank : Draft → Bool
  | nil => true
  | text s d => s = "" && d.isBlank
  | literal _ _ => false

/-- The drafts with `separator` between neighbours. -/
def join (separator : String) : List Draft → Draft
  | [] => nil
  | [d] => d
  | d :: e :: ds => d ++ text separator (join separator (e :: ds))

/-- The same for the drafts that are not blank. -/
def joinFilled (separator : String) (ds : List Draft) : Draft :=
  join separator (ds.filter fun d => !d.isBlank)

theorem literals_of_isBlank {d : Draft} (h : d.isBlank) : d.literals = [] := by
  induction d with
  | nil => rfl
  | text s d ih =>
    simp only [isBlank, Bool.and_eq_true] at h
    exact ih h.2
  | literal l d => simp [isBlank] at h

theorem literals_join (separator : String) (ds : List Draft) :
    (join separator ds).literals = ds.flatMap literals := by
  induction ds with
  | nil => rfl
  | cons d ds ih =>
    cases ds with
    | nil => simp [join]
    | cons e ds =>
      rw [join, literals_append, literals, ih]
      rfl

/-- Joining loses no literal. -/
theorem literals_joinFilled (separator : String) (ds : List Draft) :
    (joinFilled separator ds).literals = ds.flatMap literals := by
  rw [joinFilled, literals_join]
  induction ds with
  | nil => rfl
  | cons d ds ih =>
    by_cases hd : d.isBlank
    · rw [List.filter_cons_of_neg (by simp [hd]), ih, List.flatMap_cons, literals_of_isBlank hd,
        List.nil_append]
    · rw [List.filter_cons_of_pos (by simp [hd]), List.flatMap_cons, ih, List.flatMap_cons]

/-! ## Segments -/

/-- The stretches of text before, between and after the literals. -/
def segments : Draft → List String
  | nil => [""]
  | text s d =>
    match d.segments with
    | [] => [s]
    | t :: ts => (s ++ t) :: ts
  | literal _ d => "" :: d.segments

theorem length_segments (d : Draft) : d.segments.length = d.literals.length + 1 := by
  induction d with
  | nil => rfl
  | text s d ih =>
    obtain ⟨t, ts, hts⟩ := List.exists_cons_of_length_eq_add_one ih
    rw [hts] at ih
    simpa [segments, literals, hts] using ih
  | literal l d ih => rw [segments, literals, List.length_cons, List.length_cons, ih]

end Draft

/-- Segments of text with marks between them: `t₀ m₁ t₁ … mₙ tₙ`. -/
def Text.weave : List String → List String → String
  | [], _ => ""
  | t :: _, [] => t
  | t :: ts, m :: ms => t ++ m ++ weave ts ms

/-- **A written draft is its segments with the marks between them.** -/
theorem Draft.weave_segments (d : Draft) (marks : List String)
    (h : marks.length = d.literals.length) : Text.weave d.segments marks = d.write marks := by
  induction d generalizing marks with
  | nil =>
    rw [List.length_eq_zero_iff.mp h]
    rfl
  | text s d ih =>
    obtain ⟨t, ts, hts⟩ := List.exists_cons_of_length_eq_add_one d.length_segments
    have hw := ih marks h
    rw [hts] at hw
    rw [segments, hts, write, ← hw]
    cases marks with
    | nil => rfl
    | cons m ms => simp only [Text.weave, String.append_assoc]
  | literal l d ih =>
    obtain ⟨m, ms, rfl⟩ := List.exists_cons_of_length_eq_add_one h
    have hms : ms.length = d.literals.length := Nat.succ.inj h
    rw [segments, Text.weave, write, ih ms hms, String.empty_append]

end PortableSql
