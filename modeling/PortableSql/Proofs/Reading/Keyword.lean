import PortableSql.Proofs.Reading.Phrase

/-!
# Texts between keywords

A text that holds no keyword outside of its quoted texts and parentheses ends where the next keyword
begins. Texts between keywords can therefore be told from the whole.

* `Node.word?`, **`Dialect.words`**: the words of a text in their places.
* **`Dialect.Free`**: no keyword stands in the text; `Dialect.Wordless`: not even a word does.
* `keywordText`, `exists_of_append_eq_leadText`: how a text can end within a keyword or after it.
* **`Sharp`**: keywords that can be told apart; `Led`: nothing, or a text that one of them leads.
* **`Dialect.Free.append_inj`**, `leadText_inj`: a free text and what comes after it.
-/

namespace PortableSql

/-! ## Words -/

/-- The word that a node is. -/
def Node.word? : Node → Option String
  | .token (.word cs) => some (String.ofList cs)
  | _ => none

/-- A separator is no part of a word. -/
theorem IsWord.not_mem {w : String} (hw : IsWord w) {c : Char} (hc : c ∈ separators) :
    c ∉ w.toList := by
  intro hmem
  have hseparators : separators.any Text.isWordChar = false := by decide
  exact List.any_eq_false.mp hseparators c hc (List.all_eq_true.mp hw.2 c hmem)

namespace Dialect

/-- **The words of a text** outside of its quoted texts and parentheses, with a gap for every other
node. -/
def words (d : Dialect) (text : String) : Option (List (Option String)) :=
  (d.nodes text).map (·.map Node.word?)

/-- **The text has none of the keywords** outside of its quoted texts and parentheses, and these are
closed. -/
def Free (d : Dialect) (keywords : List (List String)) (text : String) : Prop :=
  ∃ ws ∈ d.words text, ∀ k ∈ keywords, ¬k.map some <:+: ws

/-- The text has no word outside of its quoted texts and parentheses, and these are closed. -/
def Wordless (d : Dialect) (text : String) : Prop := ∃ ws ∈ d.words text, ∀ w ∈ ws, w = none

theorem words_word (d : Dialect) {w : String} (hw : IsWord w) : d.words w = some [some w] := by
  rw [words, nodes, d.tokens_word hw]
  exact congrArg (some [some ·]) String.ofList_toList

variable {d : Dialect} (hd : d.Separates)

include hd

theorem words_append {s t : String} {ws : List (Option String)} (hs : d.words s = some ws)
    (ht : StartsApart t) : d.words (s ++ t) = (d.words t).map (ws ++ ·) := by
  obtain ⟨ns, hns, rfl⟩ := Option.map_eq_some_iff.mp hs
  rw [words, nodes_append hd hns ht, words, Option.map_map, Option.map_map]
  simp [Function.comp_def]

end Dialect

/-! ## Keywords -/

/-- Keywords with a blank before each of them. -/
def keywordText : List String → String
  | [] => ""
  | w :: ws => " " ++ w ++ keywordText ws

theorem leadText_eq (ws : List String) : leadText ws = keywordText ws ++ " " := by
  induction ws with
  | nil => rfl
  | cons w ws ih => simp only [leadText, keywordText, ih, String.append_assoc]

theorem startsApart_keywordText (ws : List String) {t : String} (ht : Dialect.StartsApart t) :
    Dialect.StartsApart (keywordText ws ++ t) := by
  cases ws with
  | nil => rwa [keywordText, String.empty_append]
  | cons w ws =>
    rw [keywordText, String.append_assoc, String.append_assoc]
    exact Dialect.startsApart_blank _

/-- The words of keywords. -/
theorem Dialect.words_keywordText {d : Dialect} (hd : d.Separates) {ws : List String}
    (hws : ∀ w ∈ ws, IsWord w) {t : String} (ht : StartsApart t) :
    d.words (keywordText ws ++ t) = (d.words t).map (ws.map some ++ ·) := by
  induction ws with
  | nil =>
    rw [keywordText, String.empty_append]
    exact Option.map_id_apply.symm
  | cons w ws ih =>
    obtain ⟨hw, hrest⟩ := List.forall_mem_cons.mp hws
    have hblank : d.words (keywordText (w :: ws) ++ t) = d.words (w ++ (keywordText ws ++ t)) := by
      rw [keywordText, String.append_assoc, String.append_assoc, words, nodes_blank hd, words]
    rw [hblank, words_append hd (d.words_word hw) (startsApart_keywordText ws ht), ih hrest,
      Option.map_map]
    rfl

/-- A keyword does not stand in a text where one of its words does not. -/
theorem Dialect.free_of_words {d : Dialect} {text : String} {ws : List (Option String)}
    (h : d.words text = some ws) {keywords : List (List String)}
    (hkeywords : ∀ k ∈ keywords, ∃ w ∈ k, some w ∉ ws) : d.Free keywords text := by
  refine ⟨ws, h, fun k hk hpart => ?_⟩
  obtain ⟨w, hw, hnot⟩ := hkeywords k hk
  exact hnot (hpart.subset (List.mem_map_of_mem hw))

/-- A text without words has no keyword. -/
theorem Dialect.Wordless.free {d : Dialect} {text : String} (h : d.Wordless text)
    {keywords : List (List String)} (hne : [] ∉ keywords) : d.Free keywords text := by
  obtain ⟨ws, hws, hnone⟩ := h
  refine free_of_words hws fun k hk => ?_
  obtain ⟨w, k, rfl⟩ := List.exists_cons_of_ne_nil fun hk' => hne (hk' ▸ hk)
  exact ⟨w, List.mem_cons_self, fun hw => nomatch hnone (some w) hw⟩

/-- Two ways to divide a text. -/
theorem Text.append_eq_append {s t s' t' : String} (h : s ++ t = s' ++ t') :
    (∃ z, s' = s ++ z ∧ t = z ++ t') ∨ ∃ z, s = s' ++ z ∧ t' = z ++ t := by
  have hchars := congrArg String.toList h
  rw [String.toList_append, String.toList_append, List.append_eq_append_iff] at hchars
  rcases hchars with ⟨cs, hs, ht⟩ | ⟨cs, hs, ht⟩
  · left
    refine ⟨String.ofList cs, String.toList_inj.mp ?_, String.toList_inj.mp ?_⟩
    · simpa using hs
    · simpa using ht
  · right
    refine ⟨String.ofList cs, String.toList_inj.mp ?_, String.toList_inj.mp ?_⟩
    · simpa using hs
    · simpa using ht

/-- What continues a word does not stand apart from it. -/
theorem IsWord.eq_empty_of_append {w s z x : String} (hw : IsWord w) (h : w = s ++ z)
    (hx : Dialect.StartsApart (z ++ x)) : z = "" := by
  by_contra hz
  obtain ⟨c, cs, hcs⟩ := List.exists_cons_of_ne_nil fun hz' => hz (String.toList_eq_nil_iff.mp hz')
  have hseparator : c ∈ separators := hx c (by simp [hcs])
  refine hw.not_mem hseparator ?_
  simp [h, hcs]

/-- A word can be told from what stands apart from it. -/
theorem IsWord.append_inj {v w x y : String} (hv : IsWord v) (hw : IsWord w)
    (hx : Dialect.StartsApart x) (hy : Dialect.StartsApart y) (h : v ++ x = w ++ y) :
    v = w ∧ x = y := by
  rcases Text.append_eq_append h with ⟨z, rfl, rfl⟩ | ⟨z, rfl, rfl⟩
  · obtain rfl := hw.eq_empty_of_append rfl hx
    simp
  · obtain rfl := hv.eq_empty_of_append rfl hy
    simp

/-- A text in front of a blank is empty, or it begins with the blank. -/
theorem Text.eq_empty_or_of_append_eq_blank {z x r : String} (h : z ++ x = " " ++ r) :
    z = "" ∨ ∃ y, z = " " ++ y ∧ y ++ x = r := by
  rcases append_eq_append h with ⟨y, hblank, hx⟩ | ⟨y, rfl, rfl⟩
  · have hchars : [' '] = z.toList ++ y.toList := by
      rw [← String.toList_append, ← hblank]
      rfl
    rcases List.append_eq_singleton_iff.mp hchars.symm with ⟨hz, -⟩ | ⟨hz, hy⟩
    · exact .inl (String.toList_eq_nil_iff.mp hz)
    · obtain rfl := String.toList_eq_nil_iff.mp hy
      rw [String.append_empty] at hblank
      rw [String.empty_append] at hx
      exact .inr ⟨"", by rw [String.append_empty, hblank], by rw [String.empty_append, hx]⟩
  · exact .inr ⟨y, rfl, rfl⟩

/-- **How a text ends that goes on apart**, if keywords lead the whole: between two of them, or
after them. -/
theorem exists_of_append_eq_leadText {ws : List String} (hws : ∀ w ∈ ws, IsWord w) {z x r : String}
    (hx : Dialect.StartsApart x) (h : z ++ x = leadText ws ++ r) :
    (∃ us vs, ws = us ++ vs ∧ z = keywordText us ∧ x = leadText vs ++ r) ∨
      ∃ y, z = keywordText ws ++ y ∧ Dialect.StartsApart y := by
  induction ws generalizing z with
  | nil =>
    rcases Text.eq_empty_or_of_append_eq_blank h with rfl | ⟨y, rfl, -⟩
    · exact .inr ⟨"", rfl, Dialect.startsApart_nil⟩
    · exact .inr ⟨" " ++ y, String.empty_append.symm, Dialect.startsApart_blank y⟩
  | cons w ws ih =>
    obtain ⟨hw, hrest⟩ := List.forall_mem_cons.mp hws
    rw [leadText, String.append_assoc, String.append_assoc] at h
    rcases Text.eq_empty_or_of_append_eq_blank h with rfl | ⟨y, rfl, hy⟩
    · refine .inl ⟨[], w :: ws, rfl, rfl, ?_⟩
      rw [leadText, String.append_assoc, String.append_assoc, ← h, String.empty_append]
    rcases Text.append_eq_append hy with ⟨y', hword, rfl⟩ | ⟨y', rfl, hlead⟩
    · -- the word goes on after the text, but not apart from it
      obtain rfl := hw.eq_empty_of_append hword hx
      refine .inl ⟨[w], ws, rfl, ?_, String.empty_append⟩
      rw [hword, keywordText, keywordText, String.append_empty, String.append_empty]
    · rcases ih hrest hlead.symm with ⟨us, vs, rfl, rfl, rfl⟩ | ⟨y, rfl, hapart⟩
      · exact .inl ⟨w :: us, vs, rfl, by rw [keywordText, String.append_assoc], rfl⟩
      · refine .inr ⟨y, ?_, hapart⟩
        rw [keywordText, String.append_assoc, String.append_assoc]

/-- A text without words does not begin with one. -/
theorem Dialect.Wordless.append_ne {d : Dialect} (hd : d.Separates) {text w x y : String}
    (h : d.Wordless text) (hw : IsWord w) (hx : StartsApart x) : text ++ x ≠ w ++ (" " ++ y) := by
  intro heq
  -- the text would be the word, and something apart from it
  obtain ⟨z, rfl, hz⟩ : ∃ z, text = w ++ z ∧ StartsApart z := by
    rcases Text.append_eq_append heq with ⟨z, hword, rfl⟩ | ⟨z, rfl, hblank⟩
    · obtain rfl := hw.eq_empty_of_append hword hx
      exact ⟨"", by rw [hword, String.append_empty, String.append_empty], startsApart_nil⟩
    · refine ⟨z, rfl, ?_⟩
      rcases Text.eq_empty_or_of_append_eq_blank hblank.symm with rfl | ⟨z, rfl, -⟩
      · exact startsApart_nil
      · exact startsApart_blank z
  obtain ⟨ws, hws, hnone⟩ := h
  obtain ⟨us, -, rfl⟩ := Option.map_eq_some_iff.mp
    ((words_append hd (d.words_word hw) hz).symm.trans hws)
  cases hnone (some w) List.mem_cons_self

/-! ## Texts before keywords -/

/-- **Keywords that can be told apart**: they consist of words, the first word determines the
keyword, and it stands in no keyword after the first word. -/
def Sharp (keywords : List (List String)) : Prop :=
  ∀ k ∈ keywords, (k ≠ [] ∧ ∀ w ∈ k, IsWord w) ∧
    ∀ l ∈ keywords, (k.head? = l.head? → k = l) ∧ ∀ w ∈ k.head?, w ∉ l.tail

instance (keywords : List (List String)) : Decidable (Sharp keywords) := by
  unfold Sharp
  infer_instance

/-- There is nothing, or one of the keywords leads the text. -/
def Led (keywords : List (List String)) (x : String) : Prop :=
  x = "" ∨ ∃ k ∈ keywords, ∃ r, x = leadText k ++ r

theorem Led.startsApart {keywords : List (List String)} {x : String} (h : Led keywords x) :
    Dialect.StartsApart x := by
  rcases h with rfl | ⟨k, -, r, rfl⟩
  · exact Dialect.startsApart_nil
  · exact startsApart_leadText k r

theorem leadText_cons_append (w : String) (ws : List String) (r : String) :
    leadText (w :: ws) ++ r = " " ++ (w ++ (leadText ws ++ r)) := by
  rw [leadText, String.append_assoc, String.append_assoc]

/-- The first word is determined by the text. -/
theorem head?_of_leadText_append_eq {k l : List String} (hk : k ≠ [] ∧ ∀ w ∈ k, IsWord w)
    (hl : l ≠ [] ∧ ∀ w ∈ l, IsWord w) {r t : String} (h : leadText k ++ r = leadText l ++ t) :
    k.head? = l.head? := by
  obtain ⟨v, vs, rfl⟩ := List.exists_cons_of_ne_nil hk.1
  obtain ⟨w, ws, rfl⟩ := List.exists_cons_of_ne_nil hl.1
  rw [leadText_cons_append, leadText_cons_append, String.append_right_inj] at h
  obtain ⟨rfl, -⟩ := (hk.2 v List.mem_cons_self).append_inj (hl.2 w List.mem_cons_self)
    (startsApart_leadText vs r) (startsApart_leadText ws t) h
  rfl

section

variable {keywords : List (List String)} (hsharp : Sharp keywords)

include hsharp

/-- **The keyword that leads a text is determined by it.** -/
theorem leadText_inj {k l : List String} (hk : k ∈ keywords) (hl : l ∈ keywords) {r t : String}
    (h : leadText k ++ r = leadText l ++ t) : k = l ∧ r = t := by
  obtain rfl := ((hsharp k hk).2 l hl).1
    (head?_of_leadText_append_eq (hsharp k hk).1 (hsharp l hl).1 h)
  exact ⟨rfl, (String.append_right_inj _).mp h⟩

/-- No keyword leads on within another one. -/
theorem Led.eq_nil_of_leadText {us vs : List String} (hus : us ≠ []) (hk : us ++ vs ∈ keywords)
    {r : String} (h : Led keywords (leadText vs ++ r)) : vs = [] := by
  by_contra hvs
  obtain ⟨u, us, rfl⟩ := List.exists_cons_of_ne_nil hus
  have hwords : vs ≠ [] ∧ ∀ w ∈ vs, IsWord w :=
    ⟨hvs, fun w hw => (hsharp _ hk).1.2 w (List.mem_append_right _ hw)⟩
  obtain ⟨v, vs, rfl⟩ := List.exists_cons_of_ne_nil hvs
  rcases h with h | ⟨l, hl, t, h⟩
  · rw [leadText_cons_append] at h
    simpa using congrArg String.toList h
  · have hhead := head?_of_leadText_append_eq hwords (hsharp l hl).1 h
    exact ((hsharp l hl).2 _ hk).2 v hhead.symm (List.mem_append_right us List.mem_cons_self)

/-- A text that a keyword leads holds the keyword, unless another one leads on from its start. -/
theorem exists_of_led {z x : String} (hz : z ≠ "") (hx : Led keywords x)
    (hzx : Led keywords (z ++ x)) :
    ∃ k ∈ keywords, ∃ y, z = keywordText k ++ y ∧ Dialect.StartsApart y := by
  rcases hzx with hempty | ⟨k, hk, r, hlead⟩
  · exact absurd (String.append_eq_empty_iff.mp hempty).1 hz
  · refine ⟨k, hk, ?_⟩
    rcases exists_of_append_eq_leadText (hsharp k hk).1.2 hx.startsApart hlead with
      ⟨us, vs, rfl, rfl, rfl⟩ | h
    · have hus : us ≠ [] := by
        rintro rfl
        exact hz rfl
      obtain rfl := hx.eq_nil_of_leadText hsharp hus hk
      exact ⟨"", by rw [List.append_nil, String.append_empty], Dialect.startsApart_nil⟩
    · exact h

variable {d : Dialect} (hd : d.Separates)

include hd

/-- A free text holds no more than another one that ends where a keyword leads on. -/
theorem Dialect.Free.eq_empty_of_append {s z x : String} (hs : d.Free keywords s)
    (hsz : d.Free keywords (s ++ z)) (hx : Led keywords x) (hzx : Led keywords (z ++ x)) :
    z = "" := by
  by_contra hz
  obtain ⟨k, hk, y, rfl, hy⟩ := exists_of_led hsharp hz hx hzx
  obtain ⟨ws, hws, -⟩ := hs
  obtain ⟨us, hus, hfree⟩ := hsz
  have hwords : d.words (s ++ (keywordText k ++ y)) =
      ((d.words y).map (k.map some ++ ·)).map (ws ++ ·) := by
    rw [words_append hd hws (startsApart_keywordText k hy),
      words_keywordText hd (hsharp k hk).1.2 hy]
  obtain ⟨vs, hvs, rfl⟩ := Option.map_eq_some_iff.mp (hwords.symm.trans hus)
  obtain ⟨ts, -, rfl⟩ := Option.map_eq_some_iff.mp hvs
  exact hfree k hk ⟨ws, ts, List.append_assoc ..⟩

/-- **A free text ends where the next keyword leads on.** -/
theorem Dialect.Free.append_inj {s t x y : String} (hs : d.Free keywords s)
    (ht : d.Free keywords t) (hx : Led keywords x) (hy : Led keywords y) (h : s ++ x = t ++ y) :
    s = t ∧ x = y := by
  rcases Text.append_eq_append h with ⟨z, rfl, rfl⟩ | ⟨z, rfl, rfl⟩
  · obtain rfl := hs.eq_empty_of_append hsharp hd ht hy hx
    simp
  · obtain rfl := ht.eq_empty_of_append hsharp hd hs hx hy
    simp

end

end PortableSql
