import Mathlib.Data.List.Forall2
import PortableSql.Proofs.Value.Induction

/-!
# Values that differ in their literals alone

* **`Value.Alike`**: two values are the same but for what their literals hold.
* `Value.Turn`, `Value.down?`, `Value.at?`, `Value.leaf?`: the literal at the end of a path.
* `Value.SameLeaf`: two literals stand at the end of one path, each in its own value.
-/

namespace PortableSql

/-- **The two values are the same but for what their literals hold.** -/
inductive Value.Alike : Value → Value → Prop
  | literal (l k : Literal) : Alike (.literal l) (.literal k)
  | identifier (n : Name) : Alike (.identifier n) (.identifier n)
  | column (n : Name) : Alike (.column n) (.column n)
  | table (n : Name) : Alike (.table n) (.table n)
  | sequence {as bs : List Value} (h : List.Forall₂ Alike as bs) :
    Alike (.sequence as) (.sequence bs)
  | expression (template : String) {as bs : List Value} {ms ns : List (String × Value)}
    (hp : List.Forall₂ Alike as bs) (ht : ms.map (·.1) = ns.map (·.1))
    (hn : List.Forall₂ Alike (ms.map (·.2)) (ns.map (·.2))) :
    Alike (.expression ⟨template, as, ms⟩) (.expression ⟨template, bs, ns⟩)

/-- Lists of named values with the same tokens hold related values under each token. -/
theorem lookup_forall₂ {α β : Type} {R : α → β → Prop} {ms : List (String × α)}
    {ns : List (String × β)} (ht : ms.map (·.1) = ns.map (·.1))
    (h : List.Forall₂ R (ms.map (·.2)) (ns.map (·.2))) (token : String) :
    (ms.lookup token = none ∧ ns.lookup token = none) ∨
      ∃ a b, ms.lookup token = some a ∧ ns.lookup token = some b ∧ R a b := by
  induction ms generalizing ns with
  | nil =>
    rw [List.map_eq_nil_iff.mp ht.symm]
    exact .inl ⟨rfl, rfl⟩
  | cons p ms ih =>
    obtain ⟨q, ns, rfl, hpq, ht⟩ := List.map_eq_cons_iff.mp ht.symm
    obtain ⟨hr, h⟩ := List.forall₂_cons.mp h
    rw [List.lookup_cons, List.lookup_cons, hpq]
    cases token == p.1 with
    | true => exact .inr ⟨p.2, q.2, rfl, rfl, hr⟩
    | false => exact ih ht.symm h

/-! ## Leaves -/

namespace Value

/-- A way down from a value to one of its parts. -/
inductive Turn where
  | item (i : Nat)
  | positional (i : Nat)
  | named (token : String)

/-- The part of a value to which a turn leads. -/
def down? (v : Value) : Turn → Option Value
  | .item i => match v with
    | .sequence items => items[i]?
    | _ => none
  | .positional i => match v with
    | .expression e => e.positional[i]?
    | _ => none
  | .named token => match v with
    | .expression e => e.named.lookup token
    | _ => none

/-- The part of a value at the end of a path. -/
def at? (v : Value) : List Turn → Option Value
  | [] => some v
  | turn :: path => (v.down? turn).bind fun a => a.at? path

/-- The literal of a value at the end of a path. -/
def leaf? (v : Value) (path : List Turn) : Option Literal :=
  match v.at? path with
  | some (.literal l) => some l
  | _ => none

/-- **The two literals stand at the same leaf**, `l` in `v` and `k` in `w`. -/
def SameLeaf (v w : Value) (l k : Literal) : Prop :=
  ∃ path, v.leaf? path = some l ∧ w.leaf? path = some k

theorem leaf?_cons {v a : Value} {turn : Turn} (h : v.down? turn = some a) (path : List Turn) :
    v.leaf? (turn :: path) = a.leaf? path := by
  rw [leaf?, at?, h, Option.bind_some, leaf?]

theorem SameLeaf.down {v w a b : Value} {l k : Literal} (h : a.SameLeaf b l k) (turn : Turn)
    (ha : v.down? turn = some a) (hb : w.down? turn = some b) : v.SameLeaf w l k := by
  obtain ⟨path, hl, hk⟩ := h
  exact ⟨turn :: path, (leaf?_cons ha path).trans hl, (leaf?_cons hb path).trans hk⟩

/-- Literals that stand in pairs at the same leaves are the literals along one list of paths. -/
theorem exists_leaves {v w : Value} {ls ks : List Literal}
    (h : List.Forall₂ (v.SameLeaf w) ls ks) : ∃ leaves : List (List Turn),
      leaves.map v.leaf? = ls.map some ∧ leaves.map w.leaf? = ks.map some := by
  induction h with
  | nil => exact ⟨[], rfl, rfl⟩
  | @cons l k ls ks hlk _ ih =>
    obtain ⟨path, hl, hk⟩ := hlk
    obtain ⟨leaves, hls, hks⟩ := ih
    refine ⟨path :: leaves, ?_, ?_⟩
    · rw [List.map_cons, hl, hls, List.map_cons]
    · rw [List.map_cons, hk, hks, List.map_cons]

end Value

end PortableSql
