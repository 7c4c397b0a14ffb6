import PortableSql.Proofs.Connection.Fields

/-!
# Registries in documents

Every registry can be written as a record, with the members of each record in any order and every
field that has its default left out or not, and it is what any such record is read as. A record of
fields with an unknown name or a repeated one is refused, and so is a connection whose engine goes
by another name than a canonical one.

* `Json.Document.Says`: a string with a given text, however its characters are written.
* **`Engine.SpelledBy`**, `Quotes.SpelledBy`, **`Connection.SpelledBy`**,
  **`Registry.SpelledBy`**: the documents of a value; reading them gives the value back.
* `Registry.document`, `Registry.spelledBy_document`: one that has all fields.
* `Connection.Faulty`, **`Registry.Faulty`**: records that are refused.
* **`Registry.parse?_by_spelling`**: what texts of such documents are read as.
-/

namespace PortableSql

open Json (Document RawText)

/-! ## Strings -/

/-- The document is a string with the text, however its characters are written. -/
def Json.Document.Says (d : Document) (s : String) : Prop :=
  ∃ raw, d = .string raw ∧ raw.text? = some s

/-- The string of a text, written without escapes. -/
def Json.Document.plain (s : String) : Document := .string (.plain s)

theorem Json.Document.says_plain (s : String) : (plain s).Says s :=
  ⟨_, rfl, RawText.text?_plain s⟩

theorem textOf?_eq_some_iff {d : Document} {s : String} : textOf? d = some s ↔ d.Says s := by
  cases d <;> simp [textOf?, Json.Document.Says]

theorem charOf?_of_says {d : Document} {c : Char} (h : d.Says c.toString) :
    charOf? d = some c := by
  have htext : textOf? d = some c.toString := textOf?_eq_some_iff.mpr h
  have hchars : c.toString.toList = [c] := String.toList_singleton c
  simp only [charOf?, htext, hchars, Option.bind_eq_bind, Option.bind_some]

/-- A value that is written as `null` if there is none. -/
def NullOr {α : Type} (Spelled : α → Document → Prop) : Option α → Document → Prop
  | none, d => d = .null
  | some a, d => Spelled a d

theorem nullable?_of_nullOr {α : Type} {Spelled : α → Document → Prop} {read : Document → Option α}
    (hread : ∀ a d, Spelled a d → read d = some a) (hnull : read .null = none) {a : Option α}
    {d : Document} (h : NullOr Spelled a d) : nullable? read d = some a := by
  cases a with
  | none =>
    cases h
    rfl
  | some a =>
    have ha := hread a d h
    cases d with
    | null => cases hnull.symm.trans ha
    | _ => exact congrArg (Option.map some) ha

/-- A value that may be missing is written as the value or as `null`. -/
theorem nullOr_getD {α : Type} {Spelled : α → Document → Prop} {write : α → Document}
    (h : ∀ a, Spelled a (write a)) (a : Option α) :
    NullOr Spelled a ((a.map write).getD .null) := by
  cases a with
  | none => rfl
  | some a => exact h a

/-! ## Engines and delimiters -/

/-- **The document names an engine** by its canonical name, which may also be the one name of a
record with `null`. -/
def Engine.SpelledBy (e : Engine) (d : Document) : Prop :=
  d.Says e.name ∨ ∃ raw : RawText, d = .record [(raw, .null)] ∧ raw.text? = some e.name

theorem Engine.ofName?_eq_some_iff {s : String} {e : Engine} : ofName? s = some e ↔ s = e.name := by
  constructor
  · intro h
    have hname := List.find?_some h
    exact (of_decide_eq_true hname).symm
  · rintro rfl
    cases e <;> decide

/-- Exactly the canonical names are read. -/
theorem Engine.ofDocument?_eq_some_iff {d : Document} {e : Engine} :
    ofDocument? d = some e ↔ e.SpelledBy d := by
  unfold ofDocument? SpelledBy Json.Document.Says
  split <;> simp_all [Option.bind_eq_some_iff, ofName?_eq_some_iff]

/-- **The document gives the two delimiters**, each as a string of one character. Other members are
allowed. -/
def Quotes.SpelledBy (q : Quotes) (d : Document) : Prop :=
  ∃ members left right, d = .record members ∧ Orderly ["left", "right"] false members ∧
    Holds members "left" left ∧ left.Says q.left.toString ∧
    Holds members "right" right ∧ right.Says q.right.toString

theorem Quotes.ofDocument?_of_spelledBy {q : Quotes} {d : Document} (h : q.SpelledBy d) :
    ofDocument? d = some q := by
  obtain ⟨members, left, right, rfl, hordered, hleft, hleftText, hright, hrightText⟩ := h
  obtain ⟨fields, hfields⟩ := exists_fields?_iff.mpr hordered
  have hl : fields.lookup "left" = some left :=
    (lookup_of_fields? hfields List.mem_cons_self).mpr hleft
  have hr : fields.lookup "right" = some right :=
    (lookup_of_fields? hfields (by decide)).mpr hright
  simp only [ofDocument?, quoteFields?, hfields, hl, hr, charOf?_of_says hleftText,
    charOf?_of_says hrightText, Option.bind_eq_bind, Option.bind_some, Option.pure_def]

/-- The two delimiters as fields. -/
def Quotes.fields (q : Quotes) : List (String × Document) :=
  [("left", .plain q.left.toString), ("right", .plain q.right.toString)]

/-- A record of the two delimiters. -/
def Quotes.document (q : Quotes) : Document := .record (plainMembers q.fields)

theorem Quotes.spelledBy_document (q : Quotes) : q.SpelledBy q.document := by
  have hnames : q.fields.map (·.1) = ["left", "right"] := rfl
  refine ⟨plainMembers q.fields, .plain q.left.toString, .plain q.right.toString, rfl,
    orderly_plainMembers hnames (by decide) false, holds_plainMembers.mpr List.mem_cons_self,
    Json.Document.says_plain _, holds_plainMembers.mpr ?_, Json.Document.says_plain _⟩
  exact List.mem_cons_of_mem _ List.mem_cons_self

/-! ## Connections -/

namespace Connection

/-- The fields of a connection. -/
def fieldNames : List String := ["kind", "table_prefix", "quote"]

/-- **The members give the fields of a connection.** -/
structure SpelledIn (c : Connection) (members : List (RawText × Document)) : Prop where
  orderly : Orderly fieldNames true members
  engine : GivesField members "kind" .generic Engine.SpelledBy c.engine
  tablePrefix : GivesField members "table_prefix" "" (fun s d => d.Says s) c.tablePrefix
  quotes : GivesField members "quote" none (NullOr Quotes.SpelledBy) c.quotes

/-- **The document is a record of a connection.** -/
def SpelledBy (c : Connection) (d : Document) : Prop :=
  ∃ members, d = .record members ∧ c.SpelledIn members

theorem ofDocument?_of_spelledBy {c : Connection} {d : Document} (h : c.SpelledBy d) :
    ofDocument? d = some c := by
  obtain ⟨members, rfl, hordered, hengine, htablePrefix, hquotes⟩ := h
  obtain ⟨fields, hfields⟩ := exists_fields?_iff.mpr hordered
  have he := hengine.field?_eq hfields (by decide) fun d => Engine.ofDocument?_eq_some_iff.mpr
  have hp := htablePrefix.field?_eq hfields (by decide) fun d => textOf?_eq_some_iff.mpr
  have hq := hquotes.field?_eq hfields (by decide) fun d =>
    nullable?_of_nullOr (fun _ _ h => Quotes.ofDocument?_of_spelledBy h) rfl
  rw [fieldNames] at hfields
  simp only [ofDocument?, strictFields?, hfields, he, hp, hq, Option.bind_eq_bind, Option.bind_some,
    Option.pure_def]

/-- All fields of a connection. -/
def fields (c : Connection) : List (String × Document) :=
  [("kind", .plain c.engine.name), ("table_prefix", .plain c.tablePrefix),
    ("quote", (c.quotes.map Quotes.document).getD .null)]

/-- A record of a connection with all fields. -/
def document (c : Connection) : Document := .record (plainMembers c.fields)

theorem spelledBy_document (c : Connection) : c.SpelledBy c.document := by
  have hnames : c.fields.map (·.1) = fieldNames := rfl
  have hnodup : fieldNames.Nodup := by decide
  refine ⟨plainMembers c.fields, rfl, orderly_plainMembers hnames hnodup true, ?_, ?_, ?_⟩
  · exact givesField_plainMembers hnames hnodup (List.mem_of_getElem? (i := 0) rfl) _
      (.inl (Json.Document.says_plain c.engine.name))
  · exact givesField_plainMembers hnames hnodup (List.mem_of_getElem? (i := 1) rfl) _
      (Json.Document.says_plain c.tablePrefix)
  · exact givesField_plainMembers hnames hnodup (List.mem_of_getElem? (i := 2) rfl) _
      (nullOr_getD Quotes.spelledBy_document c.quotes)

/-- **A record of a connection with a fault**: in its members, or in the name of its engine. -/
inductive Faulty (members : List (RawText × Document)) : Prop where
  | members (h : Disorderly fieldNames members)
  | engine {d : Document} (h : Holds members "kind" d) (hd : ∀ e : Engine, ¬ e.SpelledBy d)

theorem ofDocument?_of_faulty {members : List (RawText × Document)} (h : Faulty members) :
    ofDocument? (.record members) = none := by
  cases hfields : fields? fieldNames true members with
  | none =>
    rw [fieldNames] at hfields
    simp only [ofDocument?, strictFields?, hfields, Option.bind_eq_bind, Option.bind_none]
  | some fields =>
    cases h with
    | members h => cases hfields.symm.trans h.fields?_eq_none
    | @engine d h hd =>
      have hread : Engine.ofDocument? d = none :=
        Option.eq_none_iff_forall_ne_some.mpr fun e he =>
          hd e (Engine.ofDocument?_eq_some_iff.mp he)
      have he : field? fields "kind" .generic Engine.ofDocument? = none :=
        (field?_of_holds hfields (by decide) h).trans hread
      rw [fieldNames] at hfields
      simp only [ofDocument?, strictFields?, hfields, he, Option.bind_eq_bind, Option.bind_some,
        Option.bind_none]

end Connection

/-! ## Connections by name -/

/-- **The members give all connections**: each spells the one of its name, and every name has a
member. -/
structure GivesConnections (all : Std.ExtTreeMap String Connection)
    (members : List (RawText × Document)) : Prop where
  spelled : ∀ m ∈ members, ∃ (name : String) (c : Connection),
    m.1.text? = some name ∧ all[name]? = some c ∧ c.SpelledBy m.2
  complete : ∀ name ∈ all, ∃ d, Holds members name d

/-- The connections with that of one more member. -/
def withMember (done : Std.ExtTreeMap String Connection) (m : RawText × Document) :
    Option (Std.ExtTreeMap String Connection) := do
  let name ← m.1.text?
  let c ← Connection.ofDocument? m.2
  return done.insert name c

theorem connections?_eq (members : List (RawText × Document)) :
    connections? members = members.foldlM withMember ∅ := rfl

/-- After members that spell connections of `all`, their names have these connections, and the other
names what they had before. -/
theorem exists_foldlM_withMember {all : Std.ExtTreeMap String Connection}
    {members : List (RawText × Document)}
    (h : ∀ m ∈ members, ∃ (name : String) (c : Connection),
      m.1.text? = some name ∧ all[name]? = some c ∧ c.SpelledBy m.2)
    (done : Std.ExtTreeMap String Connection) :
    ∃ result, members.foldlM withMember done = some result ∧ ∀ name, result[name]? = all[name]? ∨
      (∀ d, ¬ Holds members name d) ∧ result[name]? = done[name]? := by
  induction members generalizing done with
  | nil => exact ⟨done, rfl, fun name => .inr ⟨fun _ ⟨_, hm, _⟩ => (nomatch hm), rfl⟩⟩
  | cons m members ih =>
    obtain ⟨⟨n, c, hn, hall, hc⟩, hrest⟩ := List.forall_mem_cons.mp h
    obtain ⟨result, hresult, hnames⟩ := ih hrest (done.insert n c)
    have hm : withMember done m = some (done.insert n c) := by
      simp only [withMember, hn, Connection.ofDocument?_of_spelledBy hc, Option.bind_eq_bind,
        Option.bind_some, Option.pure_def]
    refine ⟨result, ?_, fun name => ?_⟩
    · rw [List.foldlM_cons, hm]
      exact hresult
    rcases hnames name with hname | ⟨hheld, hname⟩
    · exact .inl hname
    by_cases he : n = name
    · subst he
      exact .inl (hname.trans (Std.ExtTreeMap.getElem?_insert_self.trans hall.symm))
    · refine .inr ⟨fun d hd => ?_, hname.trans ?_⟩
      · rcases holds_cons.mp hd with ⟨hn', -⟩ | hd
        · exact he (Option.some_inj.mp (hn.symm.trans hn'))
        · exact hheld d hd
      · rw [Std.ExtTreeMap.getElem?_insert, if_neg fun h => he (Std.compare_eq_iff_eq.mp h)]

theorem connectionsOf?_of_gives {all : Std.ExtTreeMap String Connection}
    {members : List (RawText × Document)} (h : GivesConnections all members) :
    connectionsOf? (.record members) = some all := by
  obtain ⟨result, hresult, hnames⟩ := exists_foldlM_withMember h.spelled ∅
  rw [connectionsOf?, connections?_eq, hresult, Option.some_inj]
  refine Std.ExtTreeMap.ext_getElem? fun name => (hnames name).elim id fun ⟨hheld, hnone⟩ => ?_
  rw [hnone, Std.ExtTreeMap.getElem?_empty, eq_comm]
  exact Std.ExtTreeMap.getElem?_eq_none fun hmem => (h.complete name hmem).elim hheld

/-- One record that is no connection is enough for a refusal. -/
theorem connectionsOf?_eq_none {members : List (RawText × Document)} {m : RawText × Document}
    (hm : m ∈ members) (h : Connection.ofDocument? m.2 = none) :
    connectionsOf? (.record members) = none := by
  rw [connectionsOf?, connections?_eq]
  generalize (∅ : Std.ExtTreeMap String Connection) = done
  induction members generalizing done with
  | nil => cases hm
  | cons m' members ih =>
    rw [List.foldlM_cons, Option.bind_eq_bind]
    rcases List.mem_cons.mp hm with rfl | hm
    · have hnone : withMember done m = none := by
        cases hname : m.1.text? <;> simp [withMember, hname, h]
      rw [hnone, Option.bind_none]
    · cases hdone : withMember done m' with
      | none => rfl
      | some next => exact ih hm next

theorem givesConnections_plainMembers (all : Std.ExtTreeMap String Connection) :
    GivesConnections all (plainMembers (all.toList.map fun p => (p.1, p.2.document))) where
  spelled m hm := by
    obtain ⟨_, hf, rfl⟩ := List.mem_map.mp hm
    obtain ⟨⟨name, c⟩, hp, rfl⟩ := List.mem_map.mp hf
    exact ⟨name, c, Json.RawText.text?_plain name,
      Std.ExtTreeMap.mem_toList_iff_getElem?_eq_some.mp hp, c.spelledBy_document⟩
  complete name hname := by
    have hp : (name, all[name]) ∈ all.toList :=
      Std.ExtTreeMap.mem_toList_iff_getElem?_eq_some.mpr
        (Std.ExtTreeMap.getElem?_eq_some_getElem hname)
    exact ⟨_, holds_plainMembers.mpr (List.mem_map_of_mem hp)⟩

/-! ## Registries -/

namespace Registry

/-- The fields of a registry. -/
def fieldNames : List String := ["default", "connections"]

/-- **The members give the fields of a registry.** -/
structure SpelledIn (r : Registry) (members : List (RawText × Document)) : Prop where
  orderly : Orderly fieldNames true members
  default : GivesField members "default" none (NullOr fun s d => d.Says s) r.default
  connections : GivesField members "connections" ∅
    (fun all d => ∃ inner, d = .record inner ∧ GivesConnections all inner) r.connections

/-- **The document is a record of a registry.** -/
def SpelledBy (r : Registry) (d : Document) : Prop :=
  ∃ members, d = .record members ∧ r.SpelledIn members

theorem ofDocument?_of_spelledBy {r : Registry} {d : Document} (h : r.SpelledBy d) :
    ofDocument? d = some r := by
  obtain ⟨members, rfl, hordered, hdefault, hconnections⟩ := h
  obtain ⟨fields, hfields⟩ := exists_fields?_iff.mpr hordered
  have hd := hdefault.field?_eq hfields (by decide) fun d =>
    nullable?_of_nullOr (fun _ _ h => textOf?_eq_some_iff.mpr h) rfl
  have hc : field? fields "connections" ∅ connectionsOf? = some r.connections :=
    hconnections.field?_eq hfields (by decide) <| by
      rintro _ ⟨inner, rfl, hinner⟩
      exact connectionsOf?_of_gives hinner
  rw [fieldNames] at hfields
  simp only [ofDocument?, strictFields?, hfields, hd, hc, Option.bind_eq_bind, Option.bind_some,
    Option.pure_def]

/-- All fields of a registry. -/
def fields (r : Registry) : List (String × Document) :=
  [("default", (r.default.map Document.plain).getD .null), ("connections", .record
    (plainMembers (r.connections.toList.map fun p => (p.1, p.2.document))))]

/-- A record of a registry with all fields. -/
def document (r : Registry) : Document := .record (plainMembers r.fields)

theorem spelledBy_document (r : Registry) : r.SpelledBy r.document := by
  have hnames : r.fields.map (·.1) = fieldNames := rfl
  have hnodup : fieldNames.Nodup := by decide
  refine ⟨plainMembers r.fields, rfl, orderly_plainMembers hnames hnodup true, ?_, ?_⟩
  · exact givesField_plainMembers hnames hnodup (List.mem_of_getElem? (i := 0) rfl) _
      (nullOr_getD Json.Document.says_plain r.default)
  · exact givesField_plainMembers hnames hnodup (List.mem_of_getElem? (i := 1) rfl) _
      ⟨_, rfl, givesConnections_plainMembers r.connections⟩

/-- **A record of a registry with a fault**: in its members, or in one of its connections. -/
inductive Faulty (members : List (RawText × Document)) : Prop where
  | members (h : Disorderly fieldNames members)
  | connection {inner fields : List (RawText × Document)} {raw : RawText}
    (h : Holds members "connections" (.record inner)) (hmem : (raw, .record fields) ∈ inner)
    (hfault : Connection.Faulty fields)

theorem ofDocument?_of_faulty {members : List (RawText × Document)} (h : Faulty members) :
    ofDocument? (.record members) = none := by
  cases hfields : fields? fieldNames true members with
  | none =>
    rw [fieldNames] at hfields
    simp only [ofDocument?, strictFields?, hfields, Option.bind_eq_bind, Option.bind_none]
  | some fields =>
    cases h with
    | members h => cases hfields.symm.trans h.fields?_eq_none
    | connection h hmem hfault =>
      have hc : field? fields "connections" ∅ connectionsOf? = none :=
        (field?_of_holds hfields (by decide) h).trans
          (connectionsOf?_eq_none hmem (Connection.ofDocument?_of_faulty hfault))
      rw [fieldNames] at hfields
      simp only [ofDocument?, strictFields?, hfields, hc, Option.bind_eq_bind, Option.bind_some,
        Option.bind_none, Option.bind_fun_none]

/-- **Registries are read from the documents that spell them, and from none with a fault.** Every
registry has a document. Its members may stand in any order and be written with any escapes, and
those of fields that have their defaults may be left out; the text is read as just this registry. A
text is refused if its record has an unknown or repeated field, or if that is so in the record of a
connection or the engine there has no canonical name. -/
theorem parse?_by_spelling :
    (∀ r : Registry, ∃ d, r.SpelledBy d) ∧
      (∀ (r : Registry) (text : String) (d : Document), Document.parse? none text = some d →
        r.SpelledBy d → parse? text = some r) ∧
      ∀ (text : String) (members : List (RawText × Document)),
        Document.parse? none text = some (.record members) → Faulty members →
          parse? text = none := by
  refine ⟨fun r => ⟨_, r.spelledBy_document⟩, fun r text d htext h => ?_,
    fun text members htext h => ?_⟩
  · rw [parse?, htext, Option.bind_some, ofDocument?_of_spelledBy h]
  · rw [parse?, htext, Option.bind_some, ofDocument?_of_faulty h]

/-- Members in another order than usual, with escapes in a name and a delimiter, with a field left
out and another member beside the delimiters; and the same with an alias for the engine. -/
theorem parse?_by_spelling_reordered :
    let quotes : Document := .record [(.plain "right", .plain "]"),
      (.plain "note", .number ⟨false, [0], [], none⟩), (.plain "left", .string [.unit 0x5b])]
    let fields (engine : String) : List (RawText × Document) :=
      [(.plain "quote", quotes), ([.char 'k', .unit 0x69, .char 'n', .char 'd'], .plain engine)]
    let members (engine : String) : List (RawText × Document) :=
      [(.plain "connections", .record [(.plain "a", .record (fields engine))]),
        (.plain "default", .null)]
    let text (engine : String) : String := "\x7b\"connections\": \x7b\"a\": \x7b\"quote\": " ++
      "\x7b\"right\": \"]\", \"note\": 0, \"left\": \"\\u005b\"\x7d, \"k\\u0069nd\": \"" ++
      engine ++ "\"\x7d\x7d, \"default\": null\x7d"
    let c : Connection := ⟨.mysql, "", some ⟨'[', ']'⟩⟩
    let r : Registry := ⟨none, (∅ : Std.ExtTreeMap String Connection).insert "a" c⟩
    Document.parse? none (text "mysql") = some (.record (members "mysql")) ∧
      r.SpelledBy (.record (members "mysql")) ∧ parse? (text "mysql") = some r ∧
      Document.parse? none (text "mariadb") = some (.record (members "mariadb")) ∧
      Faulty (members "mariadb") ∧ parse? (text "mariadb") = none := by
  intro quotes fields members text c r
  have hparse (engine : String) (h : engine = "mysql" ∨ engine = "mariadb") :
      Document.parse? none (text engine) = some (.record (members engine)) := by
    have htokens : Json.tokens? (text engine) = some [.openRecord, .string (.plain "connections"),
        .colon, .openRecord, .string (.plain "a"), .colon, .openRecord, .string (.plain "quote"),
        .colon, .openRecord, .string (.plain "right"), .colon, .string (.plain "]"), .comma,
        .string (.plain "note"), .colon, .number ⟨false, [0], [], none⟩, .comma,
        .string (.plain "left"), .colon, .string [.unit 0x5b], .closeRecord, .comma,
        .string [.char 'k', .unit 0x69, .char 'n', .char 'd'], .colon, .string (.plain engine),
        .closeRecord, .closeRecord, .comma, .string (.plain "default"), .colon, .null,
        .closeRecord] := by
      rcases h with rfl | rfl <;> decide +kernel
    rw [Document.parse?, htokens]
    rfl
  have hmysql := hparse "mysql" (.inl rfl)
  have hmariadb := hparse "mariadb" (.inr rfl)
  have hquotes : Quotes.SpelledBy ⟨'[', ']'⟩ quotes := by
    refine ⟨_, .string [.unit 0x5b], .plain "]", rfl, by decide, ?_, ⟨_, rfl, by decide⟩, ?_,
      Json.Document.says_plain _⟩
    · exact ⟨_, List.mem_of_getElem? (i := 2) rfl, by decide, rfl⟩
    · exact ⟨_, List.mem_cons_self, by decide, rfl⟩
  have hc : c.SpelledBy (.record (fields "mysql")) := by
    have hfields : fields? Connection.fieldNames true (fields "mysql") =
        some [("quote", quotes), ("kind", .plain "mysql")] := rfl
    refine ⟨_, rfl, exists_fields?_iff.mp ⟨_, hfields⟩, (givesField_iff hfields (by decide)).mpr ?_,
      (givesField_iff hfields (by decide)).mpr rfl,
      (givesField_iff hfields (by decide)).mpr hquotes⟩
    exact .inl (Json.Document.says_plain "mysql")
  have hconnections : GivesConnections r.connections [(.plain "a", .record (fields "mysql"))] := by
    refine ⟨List.forall_mem_singleton.mpr ⟨"a", c, by decide, ?_, hc⟩, fun name hname => ?_⟩
    · exact Std.ExtTreeMap.getElem?_insert_self
    rcases Std.ExtTreeMap.mem_insert.mp hname with heq | hempty
    · obtain rfl := Std.compare_eq_iff_eq.mp heq
      exact ⟨_, _, List.mem_cons_self, by decide, rfl⟩
    · exact (Std.ExtTreeMap.not_mem_empty hempty).elim
  have hr : r.SpelledBy (.record (members "mysql")) := by
    have hfields : fields? fieldNames true (members "mysql") = some [("connections",
      .record [(.plain "a", .record (fields "mysql"))]), ("default", .null)] := rfl
    exact ⟨_, rfl, exists_fields?_iff.mp ⟨_, hfields⟩, (givesField_iff hfields (by decide)).mpr rfl,
      (givesField_iff hfields (by decide)).mpr ⟨_, rfl, hconnections⟩⟩
  have hfaulty : Faulty (members "mariadb") := by
    refine .connection ⟨_, List.mem_cons_self, by decide, rfl⟩ List.mem_cons_self
      (.engine ⟨_, List.mem_of_getElem? (i := 1) rfl, by decide, rfl⟩ fun e he => ?_)
    cases (Engine.ofDocument?_eq_some_iff.mpr he : (none : Option Engine) = some e)
  exact ⟨hmysql, hr, parse?_by_spelling.2.1 r _ _ hmysql hr, hmariadb, hfaulty,
    parse?_by_spelling.2.2 _ _ hmariadb hfaulty⟩

/-- An engine by its canonical name is read although it stands not as a string, but as the name of
a record with `null`. -/
theorem parse?_tagged_engine :
    let engine : Document := .record [(.plain "mysql", .null)]
    let text := "\x7b\"connections\":\x7b\"a\":\x7b\"kind\":\x7b\"mysql\":null\x7d\x7d\x7d\x7d"
    Document.parse? none text = some (.record [(.plain "connections",
        .record [(.plain "a", .record [(.plain "kind", engine)])])]) ∧
      (∀ e : Engine, ¬ engine.Says e.name) ∧
      parse? text =
        some ⟨none, (∅ : Std.ExtTreeMap String Connection).insert "a" ⟨.mysql, "", none⟩⟩ := by
  intro engine text
  have htokens : Json.tokens? text = some [.openRecord, .string (.plain "connections"), .colon,
      .openRecord, .string (.plain "a"), .colon, .openRecord, .string (.plain "kind"), .colon,
      .openRecord, .string (.plain "mysql"), .colon, .null, .closeRecord, .closeRecord,
      .closeRecord, .closeRecord] := by
    decide +kernel
  have hparse : Document.parse? none text = some (.record [(.plain "connections",
      .record [(.plain "a", .record [(.plain "kind", engine)])])]) := by
    rw [Document.parse?, htokens]
    rfl
  refine ⟨hparse, fun e ⟨_, h, _⟩ => (nomatch h), ?_⟩
  rw [parse?, hparse]
  rfl

end Registry

end PortableSql
