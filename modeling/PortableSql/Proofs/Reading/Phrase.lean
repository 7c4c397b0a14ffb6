import PortableSql.Proofs.Reading.Segment
import PortableSql.Proofs.Statement.ClauseByClause

/-!
# What phrases are read as

* **`Value.ReadsAs`**, **`Phrase.ReadsAs`**: the nodes of what is compiled.
* `Phrase.Follows`: phrases that may stand after others.
* `leadText`, `Phrase.ReadsAs.after`: phrases after keywords; `Phrase.readsAs_digits`: a number.
-/

namespace PortableSql

variable {d : Dialect}

/-- **The value is compiled to a text with these nodes.** -/
def Value.ReadsAs (d : Dialect) (v : Value) (ns : List Node) : Prop :=
  ∃ s, v.compile d = .ok s ∧ d.nodes s = some ns

/-! ## Keywords -/

/-- Keywords with blanks around them. -/
def leadText : List String → String
  | [] => " "
  | w :: ws => " " ++ w ++ leadText ws

theorem startsApart_leadText (ws : List String) (t : String) :
    Dialect.StartsApart (leadText ws ++ t) := by
  cases ws with
  | nil => exact Dialect.startsApart_blank t
  | cons w ws =>
    rw [leadText, String.append_assoc, String.append_assoc]
    exact Dialect.startsApart_blank _

/-- Nodes after keywords. -/
theorem Dialect.nodes_leadText (hd : d.Separates) {ws : List String} (h : ∀ w ∈ ws, IsWord w)
    (t : String) : d.nodes (leadText ws ++ t) = (d.nodes t).map (ws.map Node.word ++ ·) := by
  induction ws with
  | nil =>
    rw [leadText, nodes_blank hd]
    exact Option.map_id_apply.symm
  | cons w ws ih =>
    obtain ⟨hw, hws⟩ := List.forall_mem_cons.mp h
    rw [leadText, String.append_assoc, String.append_assoc, nodes_blank hd,
      nodes_word hd hw (startsApart_leadText ws t), ih hws, Option.map_map]
    rfl

/-! ## Phrases -/

namespace Phrase

/-- **The phrases are written to a text with these nodes.** -/
def ReadsAs (d : Dialect) (ps : List Phrase) (ns : List Node) : Prop :=
  ∃ s, write (Value.compile d) ps = .ok s ∧ d.nodes s = some ns

/-- The phrases are written to a text with these nodes, which may stand after others. -/
def Follows (d : Dialect) (ps : List Phrase) (ns : List Node) : Prop :=
  ∃ s, write (Value.compile d) ps = .ok s ∧ Dialect.StartsApart s ∧ d.nodes s = some ns

theorem follows_nil (d : Dialect) : Follows d [] [] :=
  ⟨"", rfl, Dialect.startsApart_nil, rfl⟩

theorem readsAs_content {v : Value} {ns : List Node} (h : v.ReadsAs d ns) :
    ReadsAs d [.content v] ns := by
  obtain ⟨s, hs, hns⟩ := h
  exact ⟨s, by rw [write_content, hs], hns⟩

theorem write_append_of_ok {ps qs : List Phrase} {s t : String}
    (hp : write (Value.compile d) ps = .ok s) (hq : write (Value.compile d) qs = .ok t) :
    write (Value.compile d) (ps ++ qs) = .ok (s ++ t) := by
  rw [write_append, hp, hq]
  rfl

theorem write_keyword_of_ok (lead : String) {ps : List Phrase} {s : String}
    (h : write (Value.compile d) ps = .ok s) :
    write (Value.compile d) (.keyword lead :: ps) = .ok (lead ++ s) := by
  rw [write, h]
  rfl

theorem write_keyword_eq_ok {lead : String} {ps : List Phrase} {s : String}
    (h : write (Value.compile d) (.keyword lead :: ps) = .ok s) :
    ∃ t, write (Value.compile d) ps = .ok t ∧ s = lead ++ t := by
  rw [write] at h
  cases hps : write (Value.compile d) ps with
  | error e =>
    rw [hps] at h
    cases h
  | ok t =>
    rw [hps] at h
    exact ⟨t, rfl, (Except.ok.inj h).symm⟩

/-- A number is one word. -/
theorem isWord_digits (n : Nat) : IsWord (toString n) := by
  have hdigit {c : Char} (h : c.isDigit = true) : Text.isWordChar c = true := by
    have hascii : c.toNat < 0x80 := by
      simp only [Char.isDigit, Bool.and_eq_true, decide_eq_true_eq] at h
      exact Nat.lt_of_le_of_lt h.2 (by decide)
    rw [Text.isWordChar, if_pos hascii, Char.isAlphanum, h, Bool.or_true, Bool.true_or]
  rw [IsWord, Nat.toString_eq_ofList_toDigits]
  refine ⟨fun h => ?_, List.all_eq_true.mpr fun c hc => ?_⟩
  · exact Nat.toDigits_ne_nil (String.ofList_eq_empty_iff.mp h)
  · rw [String.toList_ofList] at hc
    exact hdigit (Nat.isDigit_of_mem_toDigits (by decide) (by decide) hc)

theorem readsAs_digits (n : Nat) : ReadsAs d [.keyword (toString n)] [.word (toString n)] := by
  refine ⟨toString n, ?_, ?_⟩
  · rw [write, write, pure_bind, String.append_empty]
    rfl
  · rw [Dialect.nodes, d.tokens_word (isWord_digits n)]
    rfl

variable (hd : d.Separates)

include hd

theorem ReadsAs.append {ps qs : List Phrase} {ns ms : List Node} (hp : ReadsAs d ps ns)
    (hq : Follows d qs ms) : ReadsAs d (ps ++ qs) (ns ++ ms) := by
  obtain ⟨s, hs, hns⟩ := hp
  obtain ⟨t, ht, hapart, hms⟩ := hq
  refine ⟨s ++ t, write_append_of_ok hs ht, ?_⟩
  rw [Dialect.nodes_append hd hns hapart, hms]
  rfl

theorem Follows.append {ps qs : List Phrase} {ns ms : List Node} (hp : Follows d ps ns)
    (hq : Follows d qs ms) : Follows d (ps ++ qs) (ns ++ ms) := by
  obtain ⟨s, hs, hsapart, hns⟩ := hp
  obtain ⟨t, ht, htapart, hms⟩ := hq
  refine ⟨s ++ t, write_append_of_ok hs ht, hsapart.append htapart, ?_⟩
  rw [Dialect.nodes_append hd hns htapart, hms]
  rfl

/-- Phrases after keywords. -/
theorem ReadsAs.after {ps : List Phrase} {ns : List Node} (h : ReadsAs d ps ns)
    {ws : List String} (hws : ∀ w ∈ ws, IsWord w) :
    Follows d (.keyword (leadText ws) :: ps) (ws.map .word ++ ns) := by
  obtain ⟨s, hs, hns⟩ := h
  refine ⟨leadText ws ++ s, write_keyword_of_ok _ hs, startsApart_leadText ws s, ?_⟩
  rw [Dialect.nodes_leadText hd hws, hns]
  rfl

end Phrase

end PortableSql
