import Mathlib.Data.List.Induction
import PortableSql.Proofs.Parameter.Node

/-!
# The grammar of nodes

Which nodes are read, and with which error any other one is refused.

* `Json.Ordered`: records with their names in order; **`Json.ordered_of_parse?`**: so are the values
  of texts.
* **`Json.Accepted`**: the grammar of nodes.
* **`Json.FirstFault`**: what is wrong with the first node that offends against it.
* `Json.Accepted.ofJson`, `Json.FirstFault.ofJson`: accepted nodes are read, and a first fault is
  the error; `Json.Ordered.settled`: every node is accepted or has a first fault.
* **`Value.ofJson_by_grammar`**: exactly the accepted nodes are read, and every other one fails with
  its first fault.
-/

namespace PortableSql

/-! ## Trees with ordered records -/

/-- **The names of every record increase**, so that each occurs once in it. -/
inductive Json.Ordered : Json → Prop
  | null : Ordered .null
  | bool (b : Bool) : Ordered (.bool b)
  | number (n : Json.Number) : Ordered (.number n)
  | string (s : String) : Ordered (.string s)
  | list {items : List Json} (h : ∀ j ∈ items, Ordered j) : Ordered (.list items)
  | record {members : List (String × Json)} (hnames : Increasing members)
    (h : ∀ p ∈ members, Ordered p.2) : Ordered (.record members)

namespace Json

/-- Induction on documents. -/
@[elab_as_elim]
theorem Document.induct {P : Document → Prop} (null : P .null) (bool : ∀ b, P (.bool b))
    (number : ∀ n, P (.number n)) (string : ∀ s, P (.string s))
    (list : ∀ items, (∀ d ∈ items, P d) → P (.list items))
    (record : ∀ members, (∀ p ∈ members, P p.2) → P (.record members)) (d : Document) : P d := by
  refine @Document.rec P (fun ds => ∀ d ∈ ds, P d) (fun ps => ∀ p ∈ ps, P p.2) (fun p => P p.2)
    null bool number string list record ?_ ?_ ?_ ?_ (fun _ _ h => h) d
  · exact fun _ h => nomatch h
  · exact fun _ _ hd hds => List.forall_mem_cons.mpr ⟨hd, hds⟩
  · exact fun _ h => nomatch h
  · exact fun _ _ hp hps => List.forall_mem_cons.mpr ⟨hp, hps⟩

theorem forall_of_ofItems? {P : Json → Prop} {ds : List Document} {vs : List Json}
    (h : ofItems? ds = some vs) (hP : ∀ d ∈ ds, ∀ v, ofDocument? d = some v → P v) :
    ∀ v ∈ vs, P v := by
  induction ds generalizing vs with
  | nil =>
    cases h
    exact fun _ h => nomatch h
  | cons d ds ih =>
    obtain ⟨hd, hds⟩ := List.forall_mem_cons.mp hP
    obtain ⟨v, hv, h⟩ := Option.bind_eq_some_iff.mp h
    obtain ⟨ws, hws, h⟩ := Option.bind_eq_some_iff.mp h
    cases h
    exact List.forall_mem_cons.mpr ⟨hd v hv, ih hws hds⟩

theorem forall_of_ofMembers? {P : Json → Prop} {ds : List (RawText × Document)}
    {ms : List (String × Json)} (h : ofMembers? ds = some ms)
    (hP : ∀ p ∈ ds, ∀ v, ofDocument? p.2 = some v → P v) : ∀ m ∈ ms, P m.2 := by
  induction ds generalizing ms with
  | nil =>
    cases h
    exact fun _ h => nomatch h
  | cons d ds ih =>
    obtain ⟨hd, hds⟩ := List.forall_mem_cons.mp hP
    obtain ⟨name, -, h⟩ := Option.bind_eq_some_iff.mp h
    obtain ⟨v, hv, h⟩ := Option.bind_eq_some_iff.mp h
    obtain ⟨rest, hrest, h⟩ := Option.bind_eq_some_iff.mp h
    cases h
    exact List.forall_mem_cons.mpr ⟨hd v hv, ih hrest hds⟩

/-- Sorting puts the names in order and brings in no member. -/
theorem sortMembers_spec (members : List (String × Json)) :
    Increasing (sortMembers members) ∧ ∀ p ∈ sortMembers members, p ∈ members := by
  induction members using List.reverseRecOn with
  | nil => exact ⟨.nil, fun _ h => nomatch h⟩
  | append_singleton members p ih =>
    have hsort : sortMembers (members ++ [p]) = insertKey p.1 p.2 (sortMembers members) :=
      List.foldl_concat ..
    rw [hsort]
    refine ⟨ih.1.insertKey p.1 p.2, fun q hq => ?_⟩
    rcases mem_insertKey hq with rfl | hq
    · exact List.mem_append_right _ List.mem_cons_self
    · exact List.mem_append_left _ (ih.2 q hq)

theorem ordered_of_ofDocument? {d : Document} {j : Json} (h : ofDocument? d = some j) :
    j.Ordered := by
  induction d using Document.induct generalizing j with
  | null =>
    cases h
    exact .null
  | bool b =>
    cases h
    exact .bool b
  | number n =>
    obtain ⟨n, -, rfl⟩ := Option.map_eq_some_iff.mp h
    exact .number n
  | string s =>
    obtain ⟨s, -, rfl⟩ := Option.map_eq_some_iff.mp h
    exact .string s
  | list items ih =>
    obtain ⟨vs, hvs, rfl⟩ := Option.map_eq_some_iff.mp h
    exact .list (forall_of_ofItems? hvs fun d hd v => ih d hd)
  | record members ih =>
    obtain ⟨ms, hms, rfl⟩ := Option.map_eq_some_iff.mp h
    obtain ⟨hnames, hmem⟩ := sortMembers_spec ms
    have hordered := forall_of_ofMembers? hms fun p hp v => ih p hp
    exact .record hnames fun p hp => hordered p (hmem p hp)

/-- **The value of a text has its records in order.** -/
theorem ordered_of_parse? {text : String} {j : Json} (h : parse? text = some j) : j.Ordered := by
  obtain ⟨d, -, hd⟩ := Option.bind_eq_some_iff.mp h
  exact ordered_of_ofDocument? hd

/-! ## The grammar -/

/-- The items of a field that is a list or absent. -/
def listField? : Option Json → Option (List Json)
  | none => some []
  | some (.list items) => some items
  | some _ => none

/-- The members of a field that is a record or absent. -/
def recordField? : Option Json → Option (List (String × Json))
  | none => some []
  | some (.record members) => some members
  | some _ => none

/-- **The nodes of the grammar**: scalars, lists of nodes, a name or a raw text under its tag, and
an expression under its tag, whose body has a text as template, and may have a list of nodes and a
record of nodes as its values. Other fields of the body do not matter. -/
inductive Accepted : Json → Prop
  | null : Accepted .null
  | bool (b : Bool) : Accepted (.bool b)
  | number (n : Number) : Accepted (.number n)
  | string (s : String) : Accepted (.string s)
  | list {items : List Json} (h : ∀ j ∈ items, Accepted j) : Accepted (.list items)
  | text {tag : String} (htag : tag ∈ ["table", "column", "identifier", "raw"]) (s : String) :
    Accepted (.record [(tag, .string s)])
  | expression {fields : List (String × Json)} {template : String} {items : List Json}
    {members : List (String × Json)}
    (htemplate : fields.lookup "template" = some (.string template))
    (hparams : listField? (fields.lookup "params") = some items)
    (hnamed : recordField? (fields.lookup "named") = some members)
    (hitems : ∀ j ∈ items, Accepted j) (hmembers : ∀ p ∈ members, Accepted p.2) :
    Accepted (.record [("expression", .record fields)])

/-- **The fault of the first node that offends against the grammar.** A node is checked for the
number of its keys, its tag, the shape of its body, its template, its positional values from left to
right, and its named values in the order of their names. -/
inductive FirstFault : Json → NodeError → Prop
  | item {before after : List Json} {j : Json} {e : NodeError} (hbefore : ∀ i ∈ before, Accepted i)
    (h : FirstFault j e) : FirstFault (.list (before ++ j :: after)) e
  | keys {members : List (String × Json)} (h : members.length ≠ 1) :
    FirstFault (.record members) .notOneTag
  | tag {tag : String} (h : tag ∉ ["table", "column", "identifier", "raw", "expression"])
    (body : Json) : FirstFault (.record [(tag, body)]) (.unknownTag tag)
  | text {tag : String} (htag : tag ∈ ["table", "column", "identifier", "raw"]) {body : Json}
    (h : ∀ s, body ≠ .string s) : FirstFault (.record [(tag, body)]) (.expectsString tag)
  | body {body : Json} (h : ∀ fields, body ≠ .record fields) :
    FirstFault (.record [("expression", body)]) .expressionNotRecord
  | template {fields : List (String × Json)}
    (h : ∀ template, fields.lookup "template" ≠ some (.string template)) :
    FirstFault (.record [("expression", .record fields)]) .noTemplate
  | params {fields : List (String × Json)} {template : String}
    (htemplate : fields.lookup "template" = some (.string template))
    (h : listField? (fields.lookup "params") = none) :
    FirstFault (.record [("expression", .record fields)]) .parametersNotList
  | positional {fields : List (String × Json)} {template : String} {before after : List Json}
    {j : Json} {e : NodeError} (htemplate : fields.lookup "template" = some (.string template))
    (hparams : listField? (fields.lookup "params") = some (before ++ j :: after))
    (hbefore : ∀ i ∈ before, Accepted i) (h : FirstFault j e) :
    FirstFault (.record [("expression", .record fields)]) e
  | named {fields : List (String × Json)} {template : String} {items : List Json}
    (htemplate : fields.lookup "template" = some (.string template))
    (hparams : listField? (fields.lookup "params") = some items)
    (hitems : ∀ i ∈ items, Accepted i) (h : recordField? (fields.lookup "named") = none) :
    FirstFault (.record [("expression", .record fields)]) .namedNotRecord
  | namedValue {fields : List (String × Json)} {template : String} {items : List Json}
    {members : List (String × Json)} {name : String} {j : Json} {e : NodeError}
    (htemplate : fields.lookup "template" = some (.string template))
    (hparams : listField? (fields.lookup "params") = some items)
    (hitems : ∀ i ∈ items, Accepted i)
    (hnamed : recordField? (fields.lookup "named") = some members) (hmem : (name, j) ∈ members)
    (hbefore : ∀ p ∈ members, p.1 < name → Accepted p.2) (h : FirstFault j e) :
    FirstFault (.record [("expression", .record fields)]) e

end Json

/-! ## Fields of expressions -/

section

variable {field : Option Json}

/-- The items of a field are those of a list, or none. -/
theorem Json.listField?_induct {P : List Json → Prop} {items : List Json}
    (h : listField? field = some items) (nil : P [])
    (list : ∀ items, field = some (.list items) → P items) : P items := by
  match field, h with
  | none, rfl => exact nil
  | some (.list items), rfl => exact list items rfl

/-- The members of a field are those of a record, or none. -/
theorem Json.recordField?_induct {P : List (String × Json) → Prop} {members : List (String × Json)}
    (h : recordField? field = some members) (nil : P [])
    (record : ∀ members, field = some (.record members) → P members) : P members := by
  match field, h with
  | none, rfl => exact nil
  | some (.record members), rfl => exact record members rfl

end

theorem positionalOf_eq_listField? (fields : List (String × Json)) :
    positionalOf fields = match Json.listField? (fields.lookup "params") with
      | some items => valuesOf items
      | none => .error .parametersNotList := by
  rw [positionalOf_eq]
  rcases fields.lookup "params" with _ | j
  · rfl
  · cases j <;> rfl

theorem namedFieldOf_eq_recordField? (fields : List (String × Json)) :
    namedFieldOf fields = match Json.recordField? (fields.lookup "named") with
      | some members => namedOf members
      | none => .error .namedNotRecord := by
  rw [namedFieldOf_eq]
  rcases fields.lookup "named" with _ | j
  · rfl
  · cases j <;> rfl

/-! ## Reading by the grammar -/

/-- What is computed for lists element by element fails with the first error. -/
theorem eq_error_of_cons {ε α β : Type} {f : α → Except ε β} {g : List α → Except ε (List β)}
    (hcons : ∀ a as, g (a :: as) = do
      let b ← f a
      return b :: (← g as)) {before after : List α} {a : α} {e : ε}
    (hbefore : ∀ i ∈ before, ∃ b, f i = .ok b) (h : f a = .error e) :
    g (before ++ a :: after) = .error e := by
  induction before with
  | nil =>
    rw [List.nil_append, hcons, h]
    rfl
  | cons i before ih =>
    obtain ⟨⟨b, hb⟩, hbefore⟩ := List.forall_mem_cons.mp hbefore
    rw [List.cons_append, hcons, hb, ih hbefore]
    rfl

theorem valuesOf_eq_error {before after : List Json} {j : Json} {e : NodeError}
    (hbefore : ∀ i ∈ before, ∃ v, Value.ofJson i = .ok v) (h : Value.ofJson j = .error e) :
    valuesOf (before ++ j :: after) = .error e :=
  eq_error_of_cons (g := valuesOf) (fun _ _ => rfl) hbefore h

theorem namedOf_eq_error {before after : List (String × Json)} {p : String × Json} {e : NodeError}
    (hbefore : ∀ q ∈ before, ∃ v, Value.ofJson q.2 = .ok v) (h : Value.ofJson p.2 = .error e) :
    namedOf (before ++ p :: after) = .error e := by
  refine eq_error_of_cons (f := fun p => Value.ofJson p.2 >>= fun v => pure (p.1, v))
    (g := namedOf) (fun p ps => ?_) (fun q hq => ?_) ?_
  · rw [namedOf, bind_assoc]
    simp only [pure_bind]
  · obtain ⟨v, hv⟩ := hbefore q hq
    exact ⟨(q.1, v), by rw [hv]; rfl⟩
  · rw [h]
    rfl

/-- A first fault among the values of a record in order of its names. -/
theorem namedOf_eq_error_of_first {members : List (String × Json)} {name : String} {j : Json}
    {e : NodeError} (hnames : Increasing members) (hmem : (name, j) ∈ members)
    (hbefore : ∀ p ∈ members, p.1 < name → ∃ v, Value.ofJson p.2 = .ok v)
    (h : Value.ofJson j = .error e) : namedOf members = .error e := by
  obtain ⟨before, after, rfl⟩ := List.append_of_mem hmem
  obtain ⟨-, -, hcross⟩ := List.pairwise_append.mp hnames
  refine namedOf_eq_error (fun q hq => ?_) h
  exact hbefore q (List.mem_append_left _ hq) (hcross q hq _ List.mem_cons_self)

theorem Value.exists_ofText {tag : String} (htag : tag ∈ ["table", "column", "identifier", "raw"])
    (s : String) : ∃ v, ofText tag s = .ok v := by
  simp only [List.mem_cons, List.not_mem_nil, or_false] at htag
  rcases htag with rfl | rfl | rfl | rfl
  · exact ⟨.table (.dotted s), ofText_eq_ok_iff.mpr (.inl ⟨rfl, rfl⟩)⟩
  · exact ⟨.column (.dotted s), ofText_eq_ok_iff.mpr (.inr (.inl ⟨rfl, rfl⟩))⟩
  · exact ⟨.identifier (.dotted s), ofText_eq_ok_iff.mpr (.inr (.inr (.inl ⟨rfl, rfl⟩)))⟩
  · exact ⟨.expression (.raw s), ofText_eq_ok_iff.mpr (.inr (.inr (.inr ⟨rfl, rfl⟩)))⟩

theorem exists_valuesOf {items : List Json} (h : ∀ j ∈ items, ∃ v, Value.ofJson j = .ok v) :
    ∃ vs, valuesOf items = .ok vs := by
  obtain ⟨vs, hvs⟩ := exists_forall₂ h
  exact ⟨vs, valuesOf_eq_ok_iff.mpr hvs⟩

theorem exists_namedOf {members : List (String × Json)}
    (h : ∀ p ∈ members, ∃ v, Value.ofJson p.2 = .ok v) : ∃ ns, namedOf members = .ok ns := by
  have hmember : ∀ p ∈ members, ∃ q : String × Value, p.1 = q.1 ∧ Value.ofJson p.2 = .ok q.2 :=
    fun p hp => (h p hp).elim fun v hv => ⟨(p.1, v), rfl, hv⟩
  obtain ⟨ns, hns⟩ := exists_forall₂ hmember
  exact ⟨ns, namedOf_eq_ok_iff.mpr hns⟩

/-- A record under the tag of expressions fails as its body does. -/
theorem Value.ofJson_expression_eq_error {body : Json} {e : NodeError}
    (h : expressionOf body = .error e) :
    Value.ofJson (.record [("expression", body)]) = .error e := by
  rw [Value.ofJson]
  unfold taggedOf
  rw [if_pos rfl, h]
  rfl

theorem templateOf_eq_ok {fields : List (String × Json)} {template : String}
    (h : fields.lookup "template" = some (.string template)) :
    templateOf fields = .ok template := by
  rw [templateOf, h]

theorem positionalOf_eq_ok {fields : List (String × Json)} {items : List Json}
    (hparams : Json.listField? (fields.lookup "params") = some items)
    (h : ∀ j ∈ items, ∃ v, Value.ofJson j = .ok v) : ∃ vs, positionalOf fields = .ok vs := by
  obtain ⟨vs, hvs⟩ := exists_valuesOf h
  exact ⟨vs, by rw [positionalOf_eq_listField?, hparams, ← hvs]⟩

theorem namedFieldOf_eq_ok {fields members : List (String × Json)}
    (hnamed : Json.recordField? (fields.lookup "named") = some members)
    (h : ∀ p ∈ members, ∃ v, Value.ofJson p.2 = .ok v) : ∃ ns, namedFieldOf fields = .ok ns := by
  obtain ⟨ns, hns⟩ := exists_namedOf h
  exact ⟨ns, by rw [namedFieldOf_eq_recordField?, hnamed, ← hns]⟩

/-- **Accepted nodes are read.** -/
theorem Json.Accepted.ofJson {j : Json} (h : j.Accepted) : ∃ v, Value.ofJson j = .ok v := by
  induction h with
  | null => exact ⟨_, rfl⟩
  | bool b => exact ⟨_, rfl⟩
  | number n => exact ⟨_, rfl⟩
  | string s => exact ⟨_, rfl⟩
  | list _ ih =>
    obtain ⟨vs, hvs⟩ := exists_valuesOf ih
    exact ⟨.sequence vs, Value.ofJson_list_eq_ok_iff.mpr ⟨vs, hvs, rfl⟩⟩
  | @text tag htag s =>
    obtain ⟨v, hv⟩ := Value.exists_ofText htag s
    have hne : tag ≠ "expression" := fun h => absurd (h ▸ htag) (by decide)
    exact ⟨v, taggedOf_eq_ok_iff.mpr (.inr ⟨tag, s, rfl, hne, hv⟩)⟩
  | @expression fields template items members htemplate hparams hnamed _ _ hitems hmembers =>
    obtain ⟨vs, hvs⟩ := positionalOf_eq_ok hparams hitems
    obtain ⟨ns, hns⟩ := namedFieldOf_eq_ok hnamed hmembers
    have he := expressionOf_eq_ok_iff.mpr
      ⟨template, vs, ns, templateOf_eq_ok htemplate, hvs, hns, rfl⟩
    exact ⟨_, taggedOf_eq_ok_iff.mpr (.inl ⟨fields, _, rfl, he, rfl⟩)⟩

/-- A tag that is none of the five is refused, whatever its body. -/
theorem taggedOf_eq_unknownTag {tag : String}
    (h : tag ∉ ["table", "column", "identifier", "raw", "expression"]) (body : Json) :
    taggedOf [(tag, body)] = .error (.unknownTag tag) := by
  simp only [List.mem_cons, List.not_mem_nil, or_false, not_or] at h
  obtain ⟨htable, hcolumn, hidentifier, hraw, hexpression⟩ := h
  have hcontains : textTags.contains tag = false := by
    simp [textTags, htable, hcolumn, hidentifier, hraw]
  refine (if_neg hexpression).trans ?_
  split
  · exact (if_neg htable).trans ((if_neg hcolumn).trans ((if_neg hidentifier).trans (if_neg hraw)))
  · rw [if_neg (Bool.eq_false_iff.mp hcontains)]

/-- A tag of texts is refused with any other body. -/
theorem taggedOf_eq_expectsString {tag : String}
    (htag : tag ∈ ["table", "column", "identifier", "raw"]) {body : Json}
    (h : ∀ s, body ≠ .string s) : taggedOf [(tag, body)] = .error (.expectsString tag) := by
  have hne : tag ≠ "expression" := fun h => absurd (h ▸ htag) (by decide)
  refine (if_neg hne).trans ?_
  split
  case h_1 s => exact (h s rfl).elim
  case h_2 => exact if_pos (List.contains_iff_mem.mpr htag)

section

variable {fields : List (String × Json)}

theorem expressionOf_eq_error_of_template
    (h : ∀ template, fields.lookup "template" ≠ some (.string template)) :
    expressionOf (.record fields) = .error .noTemplate := by
  have htemplate : templateOf fields = .error .noTemplate := by
    unfold templateOf
    split
    case h_1 s hs => exact (h s hs).elim
    case h_2 => rfl
  rw [expressionOf, htemplate]
  rfl

theorem expressionOf_eq_error_of_positional {template : String} {e : NodeError}
    (htemplate : fields.lookup "template" = some (.string template))
    (h : positionalOf fields = .error e) : expressionOf (.record fields) = .error e := by
  rw [expressionOf, templateOf_eq_ok htemplate, h]
  rfl

theorem expressionOf_eq_error_of_named {template : String} {items : List Json} {e : NodeError}
    (htemplate : fields.lookup "template" = some (.string template))
    (hparams : Json.listField? (fields.lookup "params") = some items)
    (hitems : ∀ i ∈ items, ∃ v, Value.ofJson i = .ok v) (h : namedFieldOf fields = .error e) :
    expressionOf (.record fields) = .error e := by
  obtain ⟨vs, hvs⟩ := positionalOf_eq_ok hparams hitems
  rw [expressionOf, templateOf_eq_ok htemplate, hvs, h]
  rfl

namespace Json.Ordered

theorem forall_list {items : List Json} (h : (Json.list items).Ordered) :
    ∀ i ∈ items, i.Ordered := by
  cases h with
  | list h => exact h

theorem forall_record {members : List (String × Json)} (h : (Json.record members).Ordered) :
    Increasing members ∧ ∀ p ∈ members, p.2.Ordered := by
  cases h with
  | record hnames h => exact ⟨hnames, h⟩

/-- The fields of the body of a tag are ordered. -/
theorem of_lookup {tag : String} (h : (Json.record [(tag, .record fields)]).Ordered)
    {name : String} {j : Json} (hfield : fields.lookup name = some j) : j.Ordered := by
  obtain ⟨-, hbody⟩ := h.forall_record
  exact (hbody _ List.mem_cons_self).forall_record.2 _ (mem_of_lookup hfield)

end Json.Ordered

end

/-- **A node with a first fault fails with it.** -/
theorem Json.FirstFault.ofJson {j : Json} {e : NodeError} (h : j.FirstFault e) (hj : j.Ordered) :
    Value.ofJson j = .error e := by
  induction h with
  | @item before after j e hbefore _ ih =>
    have hordered := hj.forall_list j List.mem_append_cons_self
    have hread : valuesOf (before ++ j :: after) = .error e :=
      valuesOf_eq_error (fun i hi => (hbefore i hi).ofJson) (ih hordered)
    rw [Value.ofJson, hread]
    rfl
  | @keys members h =>
    rcases members with _ | ⟨_, _ | _⟩
    · rfl
    · exact (h rfl).elim
    · rfl
  | tag h body => exact taggedOf_eq_unknownTag h body
  | text htag h => exact taggedOf_eq_expectsString htag h
  | @body body h =>
    refine Value.ofJson_expression_eq_error ?_
    cases body with
    | record fields => exact (h fields rfl).elim
    | _ => rfl
  | template h => exact Value.ofJson_expression_eq_error (expressionOf_eq_error_of_template h)
  | params htemplate h =>
    refine Value.ofJson_expression_eq_error (expressionOf_eq_error_of_positional htemplate ?_)
    rw [positionalOf_eq_listField?, h]
  | positional htemplate hparams hbefore _ ih =>
    have hordered := listField?_induct (P := fun items => ∀ i ∈ items, i.Ordered) hparams
      (fun _ h => (List.not_mem_nil h).elim) fun _ h => (hj.of_lookup h).forall_list
    refine Value.ofJson_expression_eq_error (expressionOf_eq_error_of_positional htemplate ?_)
    rw [positionalOf_eq_listField?, hparams]
    exact valuesOf_eq_error (fun i hi => (hbefore i hi).ofJson)
      (ih (hordered _ List.mem_append_cons_self))
  | named htemplate hparams hitems h =>
    refine Value.ofJson_expression_eq_error (expressionOf_eq_error_of_named htemplate hparams
      (fun i hi => (hitems i hi).ofJson) ?_)
    rw [namedFieldOf_eq_recordField?, h]
  | namedValue htemplate hparams hitems hnamed hmem hbefore _ ih =>
    obtain ⟨hnames, hordered⟩ := recordField?_induct
      (P := fun members => Increasing members ∧ ∀ p ∈ members, p.2.Ordered) hnamed
      ⟨.nil, fun _ h => (List.not_mem_nil h).elim⟩ fun _ h => (hj.of_lookup h).forall_record
    refine Value.ofJson_expression_eq_error (expressionOf_eq_error_of_named htemplate hparams
      (fun i hi => (hitems i hi).ofJson) ?_)
    rw [namedFieldOf_eq_recordField?, hnamed]
    exact namedOf_eq_error_of_first hnames hmem (fun p hp hlt => (hbefore p hp hlt).ofJson)
      (ih (hordered _ hmem))

/-! ## Every node has the one or the other -/

/-- A property holds of the whole list, or there is a first element without it. -/
theorem forall_or_exists_first {α : Type} (P : α → Prop) (as : List α) :
    (∀ a ∈ as, P a) ∨
      ∃ before a after, as = before ++ a :: after ∧ (∀ b ∈ before, P b) ∧ ¬ P a := by
  induction as with
  | nil => exact .inl fun _ h => nomatch h
  | cons a as ih =>
    by_cases ha : P a
    · rcases ih with h | ⟨before, b, after, rfl, hbefore, hb⟩
      · exact .inl (List.forall_mem_cons.mpr ⟨ha, h⟩)
      · exact .inr ⟨a :: before, b, after, rfl, List.forall_mem_cons.mpr ⟨ha, hbefore⟩, hb⟩
    · exact .inr ⟨[], a, as, rfl, fun _ h => (nomatch h), ha⟩

namespace Json

/-- The node is accepted or has a first fault. -/
def Settled (j : Json) : Prop := j.Accepted ∨ ∃ e, j.FirstFault e

theorem settled_list {items : List Json} (h : ∀ j ∈ items, j.Settled) :
    (Json.list items).Settled := by
  rcases forall_or_exists_first Accepted items with hall | ⟨before, j, after, rfl, hbefore, hj⟩
  · exact .inl (.list hall)
  · obtain ⟨e, he⟩ := (h j List.mem_append_cons_self).resolve_left hj
    exact .inr ⟨e, .item hbefore he⟩

/-- An expression is settled if the values in its fields are. -/
theorem settled_expression {fields : List (String × Json)}
    (hlist : ∀ items, listField? (fields.lookup "params") = some items → ∀ j ∈ items, j.Settled)
    (hrecord : ∀ members, recordField? (fields.lookup "named") = some members →
      Increasing members ∧ ∀ p ∈ members, p.2.Settled) :
    (Json.record [("expression", .record fields)]).Settled := by
  by_cases htemplate : ∃ template, fields.lookup "template" = some (.string template)
  case neg => exact .inr ⟨_, .template (not_exists.mp htemplate)⟩
  obtain ⟨template, htemplate⟩ := htemplate
  cases hparams : listField? (fields.lookup "params") with
  | none => exact .inr ⟨_, .params htemplate hparams⟩
  | some items =>
    rcases forall_or_exists_first Accepted items with hitems | ⟨before, j, after, rfl, hbefore, hj⟩
    case inr =>
      obtain ⟨e, he⟩ := (hlist _ hparams j List.mem_append_cons_self).resolve_left hj
      exact .inr ⟨e, .positional htemplate hparams hbefore he⟩
    cases hnamed : recordField? (fields.lookup "named") with
    | none => exact .inr ⟨_, .named htemplate hparams hitems hnamed⟩
    | some members =>
      obtain ⟨hnames, hmembers⟩ := hrecord members hnamed
      rcases forall_or_exists_first (fun p => Accepted p.2) members with
        hall | ⟨before, p, after, rfl, hbefore, hp⟩
      · exact .inl (.expression htemplate hparams hnamed hitems hall)
      · obtain ⟨e, he⟩ := (hmembers p List.mem_append_cons_self).resolve_left hp
        refine .inr ⟨e, .namedValue htemplate hparams hitems hnamed List.mem_append_cons_self
          (fun q hq hlt => ?_) he⟩
        -- the names increase, so a smaller one stands before
        obtain ⟨-, hafter, -⟩ := List.pairwise_append.mp hnames
        rcases List.mem_append.mp hq with hq | hq
        · exact hbefore q hq
        · rcases List.mem_cons.mp hq with rfl | hq
          · exact (String.lt_irrefl _ hlt).elim
          · exact (String.lt_asymm hlt (List.rel_of_pairwise_cons hafter hq)).elim

/-- A record is settled if, under the tag of expressions, its body is one. -/
theorem settled_record {members : List (String × Json)}
    (h : ∀ body, ("expression", body) ∈ members →
      (Json.record [("expression", body)]).Settled) : (Json.record members).Settled := by
  match members, h with
  | [], _ => exact .inr ⟨_, .keys (by decide)⟩
  | _ :: _ :: _, _ => exact .inr ⟨_, .keys (by simp)⟩
  | [(tag, body)], h =>
    by_cases hexpression : tag = "expression"
    · subst hexpression
      exact h body List.mem_cons_self
    by_cases htag : tag ∈ ["table", "column", "identifier", "raw"]
    · cases body with
      | string s => exact .inl (.text htag s)
      | _ => exact .inr ⟨_, .text htag nofun⟩
    · refine .inr ⟨_, .tag (fun h => ?_) body⟩
      exact (List.mem_append.mp (show tag ∈ _ ++ ["expression"] from h)).elim htag
        fun h => hexpression (List.mem_singleton.mp h)

/-- **Every node is accepted or has a first fault.** -/
theorem Ordered.settled {j : Json} (h : j.Ordered) : j.Settled := by
  -- an expression is settled by the items and members of its fields, so these are carried along
  suffices hj : j.Settled ∧ (Json.record [("expression", j)]).Settled ∧
      (∀ items, j = .list items → ∀ i ∈ items, i.Settled) ∧
      ∀ members, j = .record members → Increasing members ∧ ∀ p ∈ members, p.2.Settled from hj.1
  induction h with
  | null => exact ⟨.inl .null, .inr ⟨_, .body nofun⟩, nofun, nofun⟩
  | bool b => exact ⟨.inl (.bool b), .inr ⟨_, .body nofun⟩, nofun, nofun⟩
  | number n => exact ⟨.inl (.number n), .inr ⟨_, .body nofun⟩, nofun, nofun⟩
  | string s => exact ⟨.inl (.string s), .inr ⟨_, .body nofun⟩, nofun, nofun⟩
  | list _ ih =>
    have hitems := fun i hi => (ih i hi).1
    exact ⟨settled_list hitems, .inr ⟨_, .body nofun⟩, fun _ h => list.inj h ▸ hitems, nofun⟩
  | @record fields hnames _ ih =>
    refine ⟨settled_record fun body hbody => (ih _ hbody).2.1, settled_expression ?_ ?_, nofun,
      fun _ h => record.inj h ▸ ⟨hnames, fun p hp => (ih p hp).1⟩⟩
    · intro items hitems
      refine listField?_induct (P := fun items => ∀ i ∈ items, i.Settled) hitems
        (fun _ h => nomatch h) fun items hlist => ?_
      exact (ih _ (mem_of_lookup hlist)).2.2.1 items rfl
    · intro members hmembers
      refine recordField?_induct
        (P := fun members => Increasing members ∧ ∀ p ∈ members, p.2.Settled) hmembers
        ⟨.nil, fun _ h => nomatch h⟩ fun members hrecord => ?_
      exact (ih _ (mem_of_lookup hrecord)).2.2.2 members rfl

end Json

/-- **Exactly the nodes of the grammar are read, and any other one fails with its first fault**:
that of the first offending node, in the order number of keys, tag, body, template, positional
values, named values by name. -/
theorem Value.ofJson_by_grammar {j : Json} (h : j.Ordered) :
    ((∃ v, Value.ofJson j = .ok v) ↔ j.Accepted) ∧
      ∀ e, Value.ofJson j = .error e ↔ j.FirstFault e := by
  rcases h.settled with haccepted | ⟨e, hfault⟩
  · obtain ⟨v, hv⟩ := haccepted.ofJson
    refine ⟨⟨fun _ => haccepted, fun _ => ⟨v, hv⟩⟩, fun e => ⟨fun he => ?_, fun hfault => ?_⟩⟩
    · cases hv.symm.trans he
    · cases hv.symm.trans (hfault.ofJson h)
  · have he := hfault.ofJson h
    refine ⟨⟨fun ⟨v, hv⟩ => ?_, Json.Accepted.ofJson⟩, fun e' => ⟨fun he' => ?_, fun h' => ?_⟩⟩
    · cases he.symm.trans hv
    · cases he.symm.trans he'
      exact hfault
    · exact h'.ofJson h

/-- Several faults in one text: the first is in the named value `a` of the second item, which stands
behind `b` in the text. -/
theorem Value.ofJson_by_grammar_several_faults :
    let text := "[null, \x7b\"expression\": \x7b\"named\": \x7b\"b\": \x7b\x7d, " ++
      "\"a\": \x7b\"raw\": 1\x7d\x7d, \"template\": \"?\"\x7d\x7d, \x7b\"t\": 1\x7d]"
    let a : Json := .record [("raw", .number (.int 1))]
    let fields : List (String × Json) :=
      [("named", .record [("a", a), ("b", .record [])]), ("template", .string "?")]
    let j : Json := .list [.null, .record [("expression", .record fields)],
      .record [("t", .number (.int 1))]]
    Json.parse? text = some j ∧ j.Ordered ∧ j.FirstFault (.expectsString "raw") ∧
      Value.ofJson j = .error (.expectsString "raw") := by
  intro text a fields j
  let raw (s : String) : Json.RawText := s.toList.map .char
  have htokens : Json.tokens? text = some [.openList, .null, .comma, .openRecord,
      .string (raw "expression"), .colon, .openRecord, .string (raw "named"), .colon, .openRecord,
      .string (raw "b"), .colon, .openRecord, .closeRecord, .comma, .string (raw "a"), .colon,
      .openRecord, .string (raw "raw"), .colon, .number ⟨false, [1], [], none⟩, .closeRecord,
      .closeRecord, .comma, .string (raw "template"), .colon, .string (raw "?"), .closeRecord,
      .closeRecord, .comma, .openRecord, .string (raw "t"), .colon, .number ⟨false, [1], [], none⟩,
      .closeRecord, .closeList] := by
    decide +kernel
  have hparse : Json.parse? text = some j := by
    rw [Json.parse?, Json.Document.parse?, htokens]
    rfl
  have hordered := Json.ordered_of_parse? hparse
  have ha : a.FirstFault (.expectsString "raw") := .text (by decide) nofun
  have hfault : j.FirstFault (.expectsString "raw") := by
    change (Json.list ([.null] ++ .record [("expression", .record fields)] :: [_])).FirstFault _
    refine .item (List.forall_mem_singleton.mpr .null) ?_
    have htemplate : fields.lookup "template" = some (.string "?") := rfl
    refine .namedValue htemplate rfl (fun _ h => nomatch h) rfl List.mem_cons_self ?_ ha
    exact List.forall_mem_cons.mpr ⟨fun h => absurd h (by decide),
      List.forall_mem_singleton.mpr fun h => absurd h (by decide)⟩
  exact ⟨hparse, hordered, hfault, ((Value.ofJson_by_grammar hordered).2 _).mpr hfault⟩

end PortableSql
