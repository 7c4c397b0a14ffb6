import PortableSql.Proofs.Render.Occurrences
import PortableSql.Proofs.Text.Run

/-!
# Numbered placeholders

Where bound values are marked by a dollar sign and their number, the marks can be found again in a
prepared text: no other dollar sign is in it, unless a name or a template brings one in. The number
of a mark is read with the digits that happen to come after it.

* **`Text.numberedMarks`**: the dollar signs of a text that digits follow, with all these digits;
  `Text.leadingDigits`.
* `Draft.not_mem_segments`: a character that the texts of a draft do not hold is in no segment.
* `Text.numberedMarks_weave`: the marks found in segments with numbered marks between them.
* `Prepared.NumberedBy`, **`Value.numberedMarks_prepare`**: the marks of a prepared text, in order;
  `Value.mark_before_digit`: a digit after a placeholder changes its number.
-/

namespace PortableSql

namespace Text

/-- The digits that a text begins with. -/
def leadingDigits (s : String) : String := String.ofList (s.toList.takeWhile Char.isDigit)

/-- Each dollar sign that a digit follows, with all the digits after it. -/
def scanMarks : List Char → List (List Char)
  | [] => []
  | c :: cs =>
    if c = '$' ∧ cs.takeWhile Char.isDigit ≠ [] then
      (c :: cs.takeWhile Char.isDigit) :: scanMarks cs
    else scanMarks cs

/-- **The numbered marks of a text**, from left to right. -/
def numberedMarks (s : String) : List String := (scanMarks s.toList).map String.ofList

/-! ## Scanning -/

theorem scanMarks_append {as : List Char} (h : '$' ∉ as) (bs : List Char) :
    scanMarks (as ++ bs) = scanMarks bs := by
  induction as with
  | nil => rfl
  | cons a as ih =>
    rw [List.mem_cons, not_or] at h
    rw [List.cons_append, scanMarks, if_neg fun ha => h.1 ha.1.symm, ih h.2]

/-- A mark ends with the digits after its own. -/
theorem scanMarks_mark {digits : List Char} (hd : ∀ c ∈ digits, c.isDigit = true)
    (hne : digits ≠ []) (bs : List Char) :
    scanMarks ('$' :: (digits ++ bs)) =
      ('$' :: (digits ++ bs.takeWhile Char.isDigit)) :: scanMarks bs := by
  have hdollar : '$' ∉ digits := fun h => absurd (hd _ h) (by decide)
  rw [scanMarks, List.takeWhile_append_of_pos hd,
    if_pos ⟨rfl, List.append_ne_nil_of_left_ne_nil hne _⟩, scanMarks_append hdollar]

/-- The mark of a number. -/
def numberedMark (n : Nat) : String := "$" ++ toString n

theorem toList_numberedMark (n : Nat) : (numberedMark n).toList = '$' :: Nat.toDigits 10 n := by
  rw [numberedMark, String.toList_append, toList_toString]
  rfl

/-- Between two marks the digits end with the segment. -/
theorem leadingDigits_weave (s : String) (segments : List String) (numbers : List Nat) :
    (weave (s :: segments) (numbers.map numberedMark)).toList.takeWhile Char.isDigit =
      s.toList.takeWhile Char.isDigit := by
  cases numbers with
  | nil => rfl
  | cons n numbers =>
    rw [List.map_cons, weave, String.append_assoc, String.toList_append]
    refine takeWhile_append_of_head? (fun c hc => ?_) _
    rw [String.toList_append, toList_numberedMark] at hc
    cases hc
    decide

/-- **The marks between segments are found again**, each with the digits of the segment after
it. -/
theorem numberedMarks_weave (numbers : List Nat) {segments : List String}
    (hlength : segments.length = numbers.length + 1) (hs : ∀ s ∈ segments, '$' ∉ s.toList) :
    numberedMarks (weave segments (numbers.map numberedMark)) =
      List.zipWith (fun n s => numberedMark n ++ leadingDigits s) numbers segments.tail := by
  induction numbers generalizing segments with
  | nil =>
    obtain ⟨s, rfl⟩ := List.length_eq_one_iff.mp hlength
    have hnone := scanMarks_append (hs s List.mem_cons_self) []
    rw [List.append_nil] at hnone
    rw [List.map_nil, weave, numberedMarks, hnone]
    rfl
  | cons n numbers ih =>
    obtain ⟨s, rest, rfl⟩ := List.exists_cons_of_length_eq_add_one hlength
    obtain ⟨t, rest, rfl⟩ := List.exists_cons_of_length_eq_add_one (Nat.succ.inj hlength)
    obtain ⟨hs, hrest⟩ := List.forall_mem_cons.mp hs
    have hmark := scanMarks_mark isDigit_of_mem_toDigits (Nat.toDigits_ne_nil (b := 10) (n := n))
      (weave (t :: rest) (numbers.map numberedMark)).toList
    rw [leadingDigits_weave] at hmark
    have hinput : (weave (s :: t :: rest) ((n :: numbers).map numberedMark)).toList =
        s.toList ++ ('$' :: (Nat.toDigits 10 n ++
          (weave (t :: rest) (numbers.map numberedMark)).toList)) := by
      rw [List.map_cons, weave, String.toList_append, String.toList_append, toList_numberedMark,
        List.append_assoc, List.cons_append]
    have htoken : String.ofList ('$' :: (Nat.toDigits 10 n ++ t.toList.takeWhile Char.isDigit)) =
        numberedMark n ++ leadingDigits t := by
      rw [← String.toList_inj, String.toList_append, toList_numberedMark, leadingDigits,
        String.toList_ofList, String.toList_ofList, List.cons_append]
    rw [numberedMarks, hinput, scanMarks_append hs, hmark, List.map_cons, htoken]
    exact congrArg _ (ih (Nat.succ.inj hlength) hrest)

/-- Marks stand as they are just where no digit comes after one. -/
theorem zipWith_numberedMark_eq_iff {numbers : List Nat} {segments : List String}
    (h : numbers.length = segments.length) :
    List.zipWith (fun n s => numberedMark n ++ leadingDigits s) numbers segments =
        numbers.map numberedMark ↔ ∀ s ∈ segments, leadingDigits s = "" := by
  induction numbers generalizing segments with
  | nil =>
    obtain rfl := List.length_eq_zero_iff.mp h.symm
    simp
  | cons n numbers ih =>
    obtain ⟨s, rest, rfl⟩ := List.exists_cons_of_length_eq_add_one h.symm
    have hone : numberedMark n ++ leadingDigits s = numberedMark n ↔ leadingDigits s = "" := by
      rw [← String.toList_inj, String.toList_append, List.append_right_eq_self,
        String.toList_eq_nil_iff]
    rw [List.zipWith_cons_cons, List.map_cons, List.cons_eq_cons, hone, ih (Nat.succ.inj h),
      List.forall_mem_cons]

end Text

theorem Draft.not_mem_segments {c : Char} {t : Draft} (h : t.count c = 0) :
    ∀ s ∈ t.segments, c ∉ s.toList := by
  induction t with
  | nil => exact fun s hs => List.mem_singleton.mp hs ▸ List.not_mem_nil
  | text s t ih =>
    rw [count_text, Nat.add_eq_zero_iff] at h
    obtain ⟨u, us, hus⟩ := List.exists_cons_of_length_eq_add_one t.length_segments
    have hrest := ih h.2
    rw [hus, List.forall_mem_cons] at hrest
    rw [segments, hus, List.forall_mem_cons, String.toList_append, List.mem_append, not_or]
    exact ⟨⟨List.count_eq_zero.mp h.1, hrest.1⟩, hrest.2⟩
  | literal l t ih => exact List.forall_mem_cons.mpr ⟨List.not_mem_nil, ih h⟩

/-- The marks in a draft that brings in no dollar sign. -/
theorem Draft.numberedMarks_write {t : Draft} (h : t.count '$' = 0) :
    Text.numberedMarks (t.write ((List.range' 1 t.literals.length).map Text.numberedMark)) =
      List.zipWith (fun n s => Text.numberedMark n ++ Text.leadingDigits s)
        (List.range' 1 t.literals.length) t.segments.tail := by
  rw [← weave_segments t _ (by rw [List.length_map, List.length_range'])]
  refine Text.numberedMarks_weave _ ?_ (not_mem_segments h)
  rw [length_segments, List.length_range']

/-! ## Prepared texts -/

/-- **The marks of the text are those of the bound values, in order.** No segment of text between
the placeholders holds a dollar sign, and a mark is read with the digits that the segment after it
begins with. -/
structure Prepared.NumberedBy (p : Prepared) (segments : List String) : Prop where
  length : segments.length = p.binds.length + 1
  sql : p.sql = Text.weave segments ((List.range' 1 p.binds.length).map Text.numberedMark)
  dollarless : ∀ s ∈ segments, '$' ∉ s.toList
  marks : Text.numberedMarks p.sql =
    List.zipWith (fun n s => Text.numberedMark n ++ Text.leadingDigits s)
      (List.range' 1 p.binds.length) segments.tail

/-- **Numbered placeholders are found again in order.** Where neither a name, as it is written, nor
a template that the traversal reaches holds a dollar sign, a prepared text has one mark for each
bound value, in order. The marks are the placeholders just where no digit comes after one. -/
theorem Value.numberedMarks_prepare {d : Dialect} {v : Value} {p : Prepared}
    (hd : d.engine = .postgres) (hleaves : ∀ x ∈ v.trail.leaves, '$' ∉ (x.text d).toList)
    (htemplates : ∀ t ∈ v.templates, '$' ∉ t.toList) (hp : v.prepare d = .ok p) :
    ∃ segments, p.NumberedBy segments ∧
      (Text.numberedMarks p.sql = (List.range' 1 p.binds.length).map Text.numberedMark ↔
        ∀ s ∈ segments.tail, Text.leadingDigits s = "") := by
  obtain ⟨-, rfl⟩ := prepare_eq_ok_iff.mp hp
  have hcount := v.count_walk_eq_zero (by decide) hleaves htemplates
  have hplaceholders (n : Nat) : d.placeholders 0 n = (List.range' 1 n).map Text.numberedMark := by
    refine List.map_congr_left fun k _ => ?_
    rw [Dialect.placeholder, hd]
    rfl
  rw [hplaceholders]
  generalize (v.walk d).draft = t at hcount
  have hmarks := Draft.numberedMarks_write hcount
  refine ⟨t.segments, ⟨t.length_segments, ?_, Draft.not_mem_segments hcount, hmarks⟩, ?_⟩
  · exact (t.weave_segments _ (by rw [List.length_map, List.length_range'])).symm
  · rw [hmarks, Text.zipWith_numberedMark_eq_iff]
    rw [List.length_range', List.length_tail, t.length_segments, Nat.add_sub_cancel]

/-- A table prefix, a literal that looks like a mark, a cast, a token that occurs twice, and a digit
after the last placeholder. -/
theorem Value.numberedMarks_prepare_cast :
    let d : Dialect := .prefixed (.configured ⟨.postgres, "$", none⟩) "p_"
    let v : Value := .expression ⟨"? IN (?, :n) OR :n::text = ?0", [.table ⟨"t", .none⟩,
      .sequence [.literal (.text "$9"), .sequence [], .literal .null], .literal (.int 7)],
      [(":n", .literal (.int 5)), (":m", .expression (.raw "$1"))]⟩
    let p : Prepared := ⟨"\"p_t\" IN ($1, $2, $3) OR $4::text = $50",
      [.text "$9", .null, .int 5, .int 5, .int 7]⟩
    d.engine = .postgres ∧ (∀ x ∈ v.trail.leaves, '$' ∉ (x.text d).toList) ∧
      (∀ t ∈ v.templates, '$' ∉ t.toList) ∧ v.prepare d = .ok p ∧
      Text.numberedMarks p.sql = ["$1", "$2", "$3", "$4", "$50"] ∧
      ∃ segments, p.NumberedBy segments ∧
        (Text.numberedMarks p.sql = (List.range' 1 p.binds.length).map Text.numberedMark ↔
          ∀ s ∈ segments.tail, Text.leadingDigits s = "") := by
  refine ⟨rfl, ?leaves, ?templates, ?prepared, by decide,
    Value.numberedMarks_prepare rfl ?leaves ?templates ?prepared⟩
  case leaves => decide
  case templates => decide
  case prepared => rfl

/-- **A digit after a placeholder changes its number**: the first value is bound, and the text asks
for the tenth. -/
theorem Value.mark_before_digit :
    let d : Dialect := .builtin .postgres
    let v : Value := .expression ⟨"a = ?0", [.literal (.int 1)], []⟩
    let p : Prepared := ⟨"a = $10", [.int 1]⟩
    (∀ x ∈ v.trail.leaves, '$' ∉ (x.text d).toList) ∧ (∀ t ∈ v.templates, '$' ∉ t.toList) ∧
      v.prepare d = .ok p ∧ Text.numberedMarks p.sql = ["$10"] ∧
      Text.numberedMarks p.sql ≠ (List.range' 1 p.binds.length).map Text.numberedMark :=
  ⟨by decide, by decide, rfl, by decide, by decide⟩

end PortableSql
