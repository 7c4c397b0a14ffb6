import Mathlib.Data.List.Nodup
import PortableSql.Connection.Document

/-!
# The fields of a record

A record is read field by field, in whatever order its members stand. It is refused if a name is
unknown where only known ones are allowed, or if a known one comes twice.

* `Holds`: members have a value under a name, however the name is written.
* **`Orderly`**: members that are accepted; `exists_fields?_iff`: exactly these are.
* `lookup_of_fields?`: the fields that are read are those that the members hold.
* **`GivesField`**, `GivesField.field?_eq`: the value of a field, which may be its default, is read.
* **`Disorderly`**: members with an unknown name or a repeated one.
* `plainMembers`: fields as members, with names that need no escapes.
-/

namespace PortableSql

open Json (Document RawText)

/-- The members have a value under a name. -/
def Holds (members : List (RawText × Document)) (name : String) (d : Document) : Prop :=
  ∃ m ∈ members, m.1.text? = some name ∧ m.2 = d

/-- **Members that a reader of known fields accepts**: their names are well formed, and known where
only known ones are allowed, and no known one comes twice. -/
structure Orderly (known : List String) (strict : Bool) (members : List (RawText × Document)) :
    Prop where
  named : ∀ m ∈ members, ∃ name, m.1.text? = some name ∧ (strict = true → name ∈ known)
  once : members.Pairwise fun m m' =>
    ∀ name ∈ known, m.1.text? = some name → m'.1.text? ≠ some name

section

variable {known : List String} {strict : Bool} {members : List (RawText × Document)}

theorem holds_cons {m : RawText × Document} {name : String} {d : Document} :
    Holds (m :: members) name d ↔ m.1.text? = some name ∧ m.2 = d ∨ Holds members name d := by
  simp only [Holds, List.mem_cons, or_and_right, exists_or, exists_eq_left]

theorem Orderly.nil : Orderly known strict [] where
  named _ h := nomatch h
  once := .nil

theorem orderly_cons {m : RawText × Document} :
    Orderly known strict (m :: members) ↔ Orderly known strict members ∧ ∃ name,
      m.1.text? = some name ∧ (strict = true → name ∈ known) ∧
        (name ∈ known → ∀ d, ¬ Holds members name d) := by
  constructor
  · rintro ⟨hnamed, honce⟩
    obtain ⟨⟨name, hname, hknown⟩, hrest⟩ := List.forall_mem_cons.mp hnamed
    obtain ⟨hfirst, honce⟩ := List.pairwise_cons.mp honce
    refine ⟨⟨hrest, honce⟩, name, hname, hknown, fun hmem d ⟨m', hm', hname', _⟩ => ?_⟩
    exact hfirst m' hm' name hmem hname hname'
  · rintro ⟨⟨hnamed, honce⟩, name, hname, hknown, hfresh⟩
    refine ⟨List.forall_mem_cons.mpr ⟨⟨name, hname, hknown⟩, hnamed⟩,
      List.pairwise_cons.mpr ⟨fun m' hm' n hmem hn hn' => ?_, honce⟩⟩
    cases hname.symm.trans hn
    exact hfresh hmem m'.2 ⟨m', hm', hn', rfl⟩

/-! ## Reading members -/

/-- Members are read from the last to the first. -/
theorem fields?_cons_eq_some_iff {raw : RawText} {d : Document}
    {fields : List (String × Document)} :
    fields? known strict ((raw, d) :: members) = some fields ↔ ∃ name others,
      raw.text? = some name ∧ fields? known strict members = some others ∧
        (name ∈ known ∧ others.lookup name = none ∧ fields = (name, d) :: others ∨
          name ∉ known ∧ strict = false ∧ fields = others) := by
  have hread (name : String) (others : List (String × Document)) :
      (if known.contains name then
        if (others.lookup name).isSome then none else some ((name, d) :: others)
      else if strict then none else some others) = some fields ↔
        name ∈ known ∧ others.lookup name = none ∧ fields = (name, d) :: others ∨
          name ∉ known ∧ strict = false ∧ fields = others := by
    by_cases hname : name ∈ known
    · cases others.lookup name <;> simp [hname, @eq_comm _ fields]
    · cases strict <;> simp [hname, @eq_comm _ fields]
  simp only [fields?, Option.bind_eq_bind, Option.bind_eq_some_iff, hread, ← exists_and_left]

/-- The fields that are read are those that the members hold. -/
theorem lookup_of_fields? {fields : List (String × Document)}
    (h : fields? known strict members = some fields) {name : String} (hname : name ∈ known)
    {d : Document} : fields.lookup name = some d ↔ Holds members name d := by
  induction members generalizing fields with
  | nil =>
    cases h
    exact ⟨nofun, fun ⟨_, hm, _⟩ => nomatch hm⟩
  | cons m members ih =>
    obtain ⟨n, others, hn, hothers, ⟨hmem, hfresh, rfl⟩ | ⟨hmem, -, rfl⟩⟩ :=
      fields?_cons_eq_some_iff.mp h
    · rw [holds_cons, hn, Option.some_inj, ← ih hothers, List.lookup_cons]
      by_cases hne : name = n
      · subst hne
        simp [hfresh]
      · simp [beq_false_of_ne hne, Ne.symm hne]
    · have hne : n ≠ name := fun he => hmem (he ▸ hname)
      rw [holds_cons, hn, Option.some_inj, ih hothers]
      simp [hne]

/-- **Exactly the orderly members are accepted.** -/
theorem exists_fields?_iff :
    (∃ fields, fields? known strict members = some fields) ↔ Orderly known strict members := by
  induction members with
  | nil => exact ⟨fun _ => .nil, fun _ => ⟨[], rfl⟩⟩
  | cons m members ih =>
    rw [orderly_cons, ← ih]
    constructor
    · rintro ⟨fields, h⟩
      obtain ⟨name, others, hname, hothers, ⟨hmem, hfresh, -⟩ | ⟨hmem, hstrict, -⟩⟩ :=
        fields?_cons_eq_some_iff.mp h
      · refine ⟨⟨others, hothers⟩, name, hname, fun _ => hmem, fun _ d hd => ?_⟩
        rw [← lookup_of_fields? hothers hmem, hfresh] at hd
        cases hd
      · refine ⟨⟨others, hothers⟩, name, hname, fun h => ?_, fun h => absurd h hmem⟩
        cases hstrict.symm.trans h
    · rintro ⟨⟨others, hothers⟩, name, hname, hknown, hfresh⟩
      by_cases hmem : name ∈ known
      · refine ⟨_, fields?_cons_eq_some_iff.mpr
          ⟨name, others, hname, hothers, .inl ⟨hmem, ?_, rfl⟩⟩⟩
        refine Option.eq_none_iff_forall_ne_some.mpr fun d hd => hfresh hmem d ?_
        exact (lookup_of_fields? hothers hmem).mp hd
      · have hstrict : strict = false := Bool.eq_false_iff.mpr fun h => hmem (hknown h)
        exact ⟨_, fields?_cons_eq_some_iff.mpr ⟨name, others, hname, hothers,
          .inr ⟨hmem, hstrict, rfl⟩⟩⟩

instance : Decidable (Orderly known strict members) :=
  decidable_of_iff ((fields? known strict members).isSome = true) <| by
    rw [Option.isSome_iff_exists, exists_fields?_iff]

theorem fields?_eq_none (h : ¬ Orderly known strict members) :
    fields? known strict members = none := by
  rw [← exists_fields?_iff] at h
  exact Option.eq_none_iff_forall_ne_some.mpr (not_exists.mp h)

end

/-! ## Fields with defaults -/

section

variable {α : Type} {known : List String} {strict : Bool} {members : List (RawText × Document)}

/-- **The members give a field a value**: what they hold under its name spells the value, which is
the default if they hold nothing. -/
structure GivesField (members : List (RawText × Document)) (name : String) (default : α)
    (Spelled : α → Document → Prop) (a : α) : Prop where
  present : ∀ d, Holds members name d → Spelled a d
  absent : (∀ d, ¬ Holds members name d) → a = default

variable {fields : List (String × Document)} {name : String} {default : α}
  {read : Document → Option α}

/-- What the members give a field can be told from the fields that are read. -/
theorem givesField_iff (hfields : fields? known strict members = some fields)
    (hname : name ∈ known) {Spelled : α → Document → Prop} {a : α} :
    GivesField members name default Spelled a ↔
      match fields.lookup name with
      | none => a = default
      | some d => Spelled a d := by
  have hlookup (d : Document) := @lookup_of_fields? _ _ _ _ hfields name hname d
  cases hd : fields.lookup name with
  | none =>
    have hnone (d : Document) : ¬ Holds members name d := fun h => by
      cases hd.symm.trans ((hlookup d).mpr h)
    exact ⟨fun h => h.absent hnone, fun h => ⟨fun d hd => (hnone d hd).elim, fun _ => h⟩⟩
  | some d =>
    have hheld := (hlookup d).mp hd
    refine ⟨fun h => h.present d hheld,
      fun h => ⟨fun d' hd' => ?_, fun hnone => (hnone d hheld).elim⟩⟩
    cases hd.symm.trans ((hlookup d').mpr hd')
    exact h

/-- Reading a field gives the value back that the members give it. -/
theorem GivesField.field?_eq {Spelled : α → Document → Prop} {a : α}
    (ha : GivesField members name default Spelled a)
    (hfields : fields? known strict members = some fields) (hname : name ∈ known)
    (hread : ∀ d, Spelled a d → read d = some a) : field? fields name default read = some a := by
  rw [givesField_iff hfields hname] at ha
  rw [field?]
  cases hd : fields.lookup name with
  | none =>
    rw [hd] at ha
    exact congrArg some ha.symm
  | some d =>
    rw [hd] at ha
    exact hread d ha

theorem field?_of_holds (hfields : fields? known strict members = some fields)
    (hname : name ∈ known) {d : Document} (hd : Holds members name d) :
    field? fields name default read = read d := by
  rw [field?, (lookup_of_fields? hfields hname).mpr hd]

end

/-! ## Faults -/

/-- **Members with a fault**: the name of one is none of the known ones, or two have the same known
name. -/
inductive Disorderly (known : List String) (members : List (RawText × Document)) : Prop where
  | unknown {m : RawText × Document} (hm : m ∈ members) (h : ∀ name ∈ known, m.1.text? ≠ some name)
  | repeated {m m' : RawText × Document} (h : [m, m'].Sublist members) {name : String}
    (hname : name ∈ known) (hm : m.1.text? = some name) (hm' : m'.1.text? = some name)

/-- Where only known fields are allowed, members with a fault are refused. -/
theorem Disorderly.fields?_eq_none {known : List String} {members : List (RawText × Document)}
    (h : Disorderly known members) : fields? known true members = none := by
  refine PortableSql.fields?_eq_none fun hordered => ?_
  cases h with
  | unknown hm h =>
    obtain ⟨name, hname, hknown⟩ := hordered.named _ hm
    exact h name (hknown rfl) hname
  | repeated h hname hm hm' =>
    exact List.pairwise_iff_forall_sublist.mp hordered.once h _ hname hm hm'

/-! ## Plain names -/

/-- The text written character by character, without escapes. -/
def Json.RawText.plain (s : String) : RawText := s.toList.map .char

theorem Json.RawText.text?_plain (s : String) : (plain s).text? = some s := by
  have hchars (cs : List Char) : RawText.chars? (cs.map .char) = some cs := by
    induction cs with
    | nil => rfl
    | cons c cs ih => rw [List.map_cons, chars?, ih, Option.map_some]
  rw [text?, plain, hchars, Option.map_some, String.ofList_toList]

/-- Fields as members of a record, with plain names. -/
def plainMembers (fields : List (String × Document)) : List (RawText × Document) :=
  fields.map fun f => (.plain f.1, f.2)

theorem holds_plainMembers {fields : List (String × Document)} {name : String} {d : Document} :
    Holds (plainMembers fields) name d ↔ (name, d) ∈ fields := by
  constructor
  · rintro ⟨_, hm, hname, rfl⟩
    obtain ⟨f, hf, rfl⟩ := List.mem_map.mp hm
    rw [Json.RawText.text?_plain, Option.some_inj] at hname
    exact hname ▸ hf
  · exact fun h => ⟨_, List.mem_map_of_mem h, Json.RawText.text?_plain name, rfl⟩

section

variable {known : List String} {fields : List (String × Document)}

theorem orderly_plainMembers (hknown : fields.map (·.1) = known) (hnodup : known.Nodup)
    (strict : Bool) : Orderly known strict (plainMembers fields) := by
  subst hknown
  refine ⟨List.forall_mem_map.mpr fun f hf => ?_, List.pairwise_map.mpr ?_⟩
  · exact ⟨f.1, Json.RawText.text?_plain f.1, fun _ => List.mem_map_of_mem hf⟩
  · refine (List.pairwise_map.mp hnodup).imp fun hne name _ hf hf' => ?_
    rw [Json.RawText.text?_plain, Option.some_inj] at hf hf'
    exact hne (hf.trans hf'.symm)

theorem givesField_plainMembers (hknown : fields.map (·.1) = known) (hnodup : known.Nodup)
    {name : String} {d : Document} (hd : (name, d) ∈ fields) {α : Type} (default : α)
    {Spelled : α → Document → Prop} {a : α} (ha : Spelled a d) :
    GivesField (plainMembers fields) name default Spelled a where
  present d' hd' := by
    subst hknown
    have hsame := List.inj_on_of_nodup_map hnodup hd (holds_plainMembers.mp hd') rfl
    rwa [← (Prod.mk.inj hsame).2]
  absent h := (h d (holds_plainMembers.mpr hd)).elim

end

end PortableSql
