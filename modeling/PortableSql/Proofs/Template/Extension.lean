import PortableSql.Proofs.Render.Phrase
import PortableSql.Proofs.Template.Decomposition

/-!
# Templates that grow

A template grows by fragments that are appended to it. When each of them meets what stands before it
at a seam, the pieces of the template are the earlier ones with those of the fragments after them.

* **`Template.merge`**: pieces followed by others, where a text at the end and a text at the start
  become one; `Canonical.glue_eq_merge`.
* **`Template.split_append_eq_merge`**: the pieces of two texts that meet at a seam.
* **`Template.Appends`**: fragments appended one after another, each at a seam;
  `Template.appends_of_isBreak`: fragments that open with a break.
* `Template.Appends.split_eq`, `Template.Appends.placeholders_eq`: what has been recognised stays.
-/

namespace PortableSql.Template

open Text (isBreak)

/-! ## Two lists of pieces -/

/-- **Pieces followed by others.** A text that ends the first ones and a text that starts the others
become one. -/
def merge (ps qs : List Piece) : List Piece :=
  match ps.getLast?, qs with
  | some (.text s), .text t :: rest => ps.dropLast ++ .text (s ++ t) :: rest
  | _, _ => ps ++ qs

theorem merge_cons_cons (p q : Piece) (ps rs : List Piece) :
    merge (p :: q :: ps) rs = p :: merge (q :: ps) rs := by
  simp only [merge, List.getLast?_cons_cons, List.dropLast_cons_cons]
  split <;> rfl

/-- Canonical pieces are glued at their end only. -/
theorem Canonical.glue_eq_merge {ps : List Piece} (h : Canonical ps) (qs : List Piece) :
    glue ps qs = merge ps qs := by
  induction ps with
  | nil => rfl
  | cons p ps ih =>
    have hp := h.stands [] p ps rfl
    cases ps with
    | nil =>
      cases p with
      | text s =>
        have hs : s.toList ≠ [] := hp.source_ne_nil
        rcases qs with _ | ⟨t | _ | token, qs⟩ <;>
          simp [glue, Template.withText, merge, hs]
      | positional => cases qs <;> rfl
      | named token => cases qs <;> rfl
    | cons q ps =>
      rw [merge_cons_cons, ← ih h.tail]
      cases p with
      | text s =>
        -- no text stands beside the text, so the glue does not reach it
        have hq : q.isPlaceholder = true :=
          ((List.isChain_cons_cons.mp h.apart).1).resolve_left Bool.false_ne_true
        have hhead : ∀ r ∈ (glue (q :: ps) qs).head?, r.isPlaceholder = true := by
          intro r hr
          cases q with
          | text t => cases hq
          | positional => exact Option.some.inj hr ▸ hq
          | named token => exact Option.some.inj hr ▸ hq
        have hs : s.toList ≠ [] := hp.source_ne_nil
        rw [glue, withText_of_ne_nil hs hhead, String.ofList_toList]
      | positional => rfl
      | named token => rfl

/-- **At a seam, the pieces of a template are those of its first part followed by those of its
second part**, where only a text at the end of the one and a text at the start of the other become
one. -/
theorem split_append_eq_merge {s t : String} (h : Seam s.toList t.toList) :
    split (s ++ t) = merge (split s) (split t) := by
  rw [split_append h, (canonical_split s).glue_eq_merge]

/-! ## Fragments one after another -/

/-- **A text to which fragments have been appended**, each one at a seam with all that stood before
it. -/
inductive Appends (s : String) : List String → String → Prop where
  | nil : Appends s [] s
  | append {fragments : List String} {t fragment : String} (h : Appends s fragments t)
    (hseam : Seam t.toList fragment.toList) : Appends s (fragments ++ [fragment]) (t ++ fragment)

namespace Appends

variable {s t : String} {fragments : List String}

theorem trans {u : String} {more : List String} (h : Appends s fragments t)
    (h' : Appends t more u) : Appends s (fragments ++ more) u := by
  induction h' with
  | nil => rwa [List.append_nil]
  | append _ hseam ih =>
    rw [← List.append_assoc]
    exact ih.append hseam

/-- **The pieces of a text stay as fragments are appended**; only a text at its end is continued. -/
theorem split_eq (h : Appends s fragments t) :
    split t = fragments.foldl (fun ps fragment => merge ps (split fragment)) (split s) := by
  induction h with
  | nil => rfl
  | append _ hseam ih => rw [split_append_eq_merge hseam, ih, List.foldl_concat]

/-- **Appended fragments only add placeholders of their own**, after the earlier ones. -/
theorem placeholders_eq (h : Appends s fragments t) :
    placeholders t = placeholders s ++ fragments.flatMap placeholders := by
  induction h with
  | nil => exact (List.append_nil _).symm
  | append _ hseam ih =>
    rw [placeholders_append hseam, ih, List.flatMap_append, List.flatMap_singleton,
      List.append_assoc]

end Appends

/-- **Fragments that open with a break** can be appended to any text. -/
theorem appends_of_isBreak (s : String) {fragments : List String}
    (h : ∀ f ∈ fragments, ∃ c ∈ f.toList.head?, isBreak c = true) :
    Appends s fragments (s ++ Text.join "" fragments) := by
  induction fragments using List.reverseRecOn with
  | nil =>
    rw [Text.join, String.append_empty]
    exact .nil
  | append_singleton fragments f ih =>
    obtain ⟨hinit, hf⟩ := List.forall_mem_append.mp h
    obtain ⟨c, hc, hbreak⟩ := hf f (List.mem_singleton_self f)
    rw [Text.join_empty_append, ← String.append_assoc]
    refine (ih hinit).append (.inr fun b hb => ?_)
    cases Option.mem_unique hb hc
    exact hbreak

end PortableSql.Template
