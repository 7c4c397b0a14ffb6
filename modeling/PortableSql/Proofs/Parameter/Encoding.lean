import PortableSql.Proofs.Name.Spelling
import PortableSql.Proofs.Parameter.Node

/-!
# Values as nodes

A value is written as a node: scalars and lists as themselves, a name under its tag with its
spelling, and an expression with its template and all its values. Reading the node gives the value
back, at whatever depth, and so does reading the values of an expression from two documents.

* `Value.toJson`: the node of a value.
* **`Value.Encodable`**: the values that have a node.
* `Value.ofJson_toJson`, **`Value.encodable_iff_ofJson`**: exactly these values are read.
* **`Value.read_back`**: the node of a value, and the documents of an expression, are read as it.
-/

namespace PortableSql

/-! ## Nodes of values -/

/-- The node of a literal. A literal without one is written as `null`. -/
def Literal.toJson : Literal → Json
  | .null => .null
  | .bool b => .bool b
  | .int n => .number (.int n)
  | .float x => if h : Decimal.isFinite x = true then .number (.float ⟨x, h⟩) else .null
  | .text s => .string s
  | .blob _ => .null

mutual

/-- **The node of a value.** -/
def Value.toJson : Value → Json
  | .literal l => l.toJson
  | .identifier n => .record [("identifier", .string n.spelling)]
  | .column n => .record [("column", .string n.spelling)]
  | .table n => .record [("table", .string n.spelling)]
  | .sequence items => .list (toJsonAll items)
  | .expression e => .record [("expression", e.toJson)]

/-- The body of the tag of an expression. -/
def Expression.toJson : Expression → Json
  | ⟨template, positional, named⟩ =>
    .record [("named", .record (toJsonNamed named)), ("params", .list (toJsonAll positional)),
      ("template", .string template)]

/-- The node of each value. -/
def toJsonAll : List Value → List Json
  | [] => []
  | v :: vs => v.toJson :: toJsonAll vs

/-- The node of each named value, under its token. -/
def toJsonNamed : List (String × Value) → List (String × Json)
  | [] => []
  | (token, v) :: vs => (token, v.toJson) :: toJsonNamed vs

end

theorem toJsonAll_eq_map (vs : List Value) : toJsonAll vs = vs.map Value.toJson :=
  eq_map_of_cons rfl (fun _ _ => rfl) vs

theorem toJsonNamed_eq_map (ps : List (String × Value)) :
    toJsonNamed ps = ps.map fun p => (p.1, p.2.toJson) :=
  eq_map_of_cons rfl (fun _ _ => rfl) ps

/-! ## Values that have a node -/

/-- A literal that is neither a blob nor a double without a literal. -/
def Literal.Encodable : Literal → Prop
  | .float x => Decimal.isFinite x = true
  | .blob _ => False
  | _ => True

/-- **The values that have a node**: no blob, no double that is not a finite number, and no name
with other qualifiers than segments without dots, at any depth. -/
inductive Value.Encodable : Value → Prop
  | literal {l : Literal} (h : l.Encodable) : Encodable (.literal l)
  | identifier {n : Name} (h : n.Spelled) : Encodable (.identifier n)
  | column {n : Name} (h : n.Spelled) : Encodable (.column n)
  | table {n : Name} (h : n.Spelled) : Encodable (.table n)
  | sequence {items : List Value} (h : ∀ v ∈ items, Encodable v) : Encodable (.sequence items)
  | expression {e : Expression} (hpositional : ∀ v ∈ e.positional, Encodable v)
    (hnamed : ∀ p ∈ e.named, Encodable p.2) (hwell : Expression.WellNamed e.named) :
    Encodable (.expression e)

/-! ## Reading back -/

theorem Literal.ofJson_toJson {l : Literal} (h : l.Encodable) :
    Value.ofJson l.toJson = .ok (.literal l) := by
  cases l with
  | float x =>
    have hx : Decimal.isFinite x = true := h
    rw [toJson, dif_pos hx]
    rfl
  | blob => cases h
  | _ => rfl

theorem valuesOf_toJsonAll {vs : List Value} (h : ∀ v ∈ vs, Value.ofJson v.toJson = .ok v) :
    valuesOf (toJsonAll vs) = .ok vs := by
  rw [toJsonAll_eq_map, valuesOf_eq_ok_iff, List.forall₂_map_left_iff, List.forall₂_same]
  exact h

theorem namedOf_toJsonNamed {ns : List (String × Value)}
    (h : ∀ p ∈ ns, Value.ofJson p.2.toJson = .ok p.2) : namedOf (toJsonNamed ns) = .ok ns := by
  rw [toJsonNamed_eq_map, namedOf_eq_ok_iff, List.forall₂_map_left_iff, List.forall₂_same]
  exact fun p hp => ⟨rfl, h p hp⟩

/-- Under a tag for names, the spelling of a name is read as the name. -/
theorem Value.ofJson_spelling {n : Name} (h : n.Spelled) :
    Value.ofJson (.record [("identifier", .string n.spelling)]) = .ok (.identifier n) ∧
      Value.ofJson (.record [("column", .string n.spelling)]) = .ok (.column n) ∧
      Value.ofJson (.record [("table", .string n.spelling)]) = .ok (.table n) := by
  have hn := Name.dotted_spelling h
  refine ⟨?_, ?_, ?_⟩ <;>
    refine taggedOf_eq_ok_iff.mpr (.inr ⟨_, _, rfl, by decide, ofText_eq_ok_iff.mpr ?_⟩)
  · exact .inr (.inr (.inl ⟨rfl, by rw [hn]⟩))
  · exact .inr (.inl ⟨rfl, by rw [hn]⟩)
  · exact .inl ⟨rfl, by rw [hn]⟩

/-- **The node of a value is read as the value.** -/
theorem Value.ofJson_toJson {v : Value} (h : v.Encodable) : Value.ofJson v.toJson = .ok v := by
  induction h with
  | literal h => exact Literal.ofJson_toJson h
  | identifier h => exact (ofJson_spelling h).1
  | column h => exact (ofJson_spelling h).2.1
  | table h => exact (ofJson_spelling h).2.2
  | sequence _ ih => exact ofJson_list_eq_ok_iff.mpr ⟨_, valuesOf_toJsonAll ih, rfl⟩
  | @expression e _ _ hwell ihpositional ihnamed =>
    obtain ⟨template, positional, named⟩ := e
    refine taggedOf_eq_ok_iff.mpr (.inl ⟨_, _, rfl, expressionOf_eq_ok_iff.mpr ?_, rfl⟩)
    exact ⟨_, _, _, rfl, valuesOf_toJsonAll ihpositional, namedOf_toJsonNamed ihnamed,
      (Expression.bindAll_of_wellNamed hwell _ _).symm⟩

theorem Value.encodable_of_ofText {tag s : String} {v : Value} (h : Value.ofText tag s = .ok v) :
    v.Encodable := by
  rcases ofText_eq_ok_iff.mp h with ⟨-, rfl⟩ | ⟨-, rfl⟩ | ⟨-, rfl⟩ | ⟨-, rfl⟩
  · exact .table (Name.spelled_dotted s)
  · exact .column (Name.spelled_dotted s)
  · exact .identifier (Name.spelled_dotted s)
  · exact .expression (fun _ h => nomatch h) (fun _ h => nomatch h) ⟨.nil, fun _ h => nomatch h⟩

theorem Literal.encodable_ofNumber (n : Json.Number) : (Literal.ofNumber n).Encodable := by
  cases n with
  | int n => trivial
  | float x => exact x.finite

/-- **Exactly the values that have a node are read from one.** -/
theorem Value.encodable_iff_ofJson {v : Value} :
    v.Encodable ↔ ∃ j, Value.ofJson j = .ok v := by
  refine ⟨fun h => ⟨v.toJson, ofJson_toJson h⟩, fun ⟨j, hj⟩ => ?_⟩
  exact ofJson_induct (.literal trivial) (fun _ => .literal trivial)
    (fun n => .literal (Literal.encodable_ofNumber n)) (fun _ => .literal trivial)
    (fun _ _ _ => encodable_of_ofText) (fun _ => .sequence)
    (fun _ hwell hpositional hnamed => .expression hpositional hnamed hwell) hj

/-! ## Documents -/

/-- The values of an expression are read from documents of their nodes. -/
theorem Expression.ofDocuments_toJson {e : Expression} (h : (Value.expression e).Encodable)
    {positional named : String}
    (hp : Json.parse? positional = some (.list (toJsonAll e.positional)))
    (hn : Json.parse? named = some (.record (toJsonNamed e.named))) :
    Expression.ofDocuments e.template (some positional) (some named) = .ok e := by
  obtain ⟨template, ps, ns⟩ := e
  cases h with
  | expression hpositional hnamed hwell =>
    refine ofDocuments_eq_ok_iff.mpr ⟨_, _, positionalDocument_eq_ok_iff.mpr ⟨_, hp, ?_⟩,
      namedDocument_eq_ok_iff.mpr ⟨_, hn, ?_⟩, (bindAll_of_wellNamed hwell _ _).symm⟩
    · exact valuesOf_toJsonAll fun v hv => Value.ofJson_toJson (hpositional v hv)
    · exact namedOf_toJsonNamed fun p hp => Value.ofJson_toJson (hnamed p hp)

/-- **Values are read back from their nodes**, and an expression also from any two texts that give
the nodes of its positional and of its named values. -/
theorem Value.read_back {v : Value} (h : v.Encodable) :
    Value.ofJson v.toJson = .ok v ∧
      ∀ e : Expression, v = .expression e → ∃ params named,
        v.toJson = .record [("expression",
          .record [("named", named), ("params", params), ("template", .string e.template)])] ∧
        ∀ positionalText namedText : String, Json.parse? positionalText = some params →
          Json.parse? namedText = some named →
          Expression.ofDocuments e.template (some positionalText) (some namedText) = .ok e := by
  refine ⟨ofJson_toJson h, ?_⟩
  rintro ⟨template, positional, named⟩ rfl
  exact ⟨.list (toJsonAll positional), .record (toJsonNamed named), rfl,
    fun _ _ => Expression.ofDocuments_toJson h⟩

/-- A qualified column, a list and a named expression without values; in its document the fields
stand in another order. -/
theorem Value.read_back_nested :
    let inner : Value := .expression ⟨"1", [], []⟩
    let e : Expression := ⟨"f(?, ?) > :n", [.column ⟨"id", .segments ["u"]⟩,
      .sequence [.literal (.int (-7)), .text "?"]], [(":n", inner)]⟩
    let positionalText := "[\x7b\"column\": \"u.id\"\x7d, [-7, \"?\"]]"
    let namedText := "\x7b\":n\": \x7b\"expression\": \x7b\"template\": \"1\", " ++
      "\"params\": [], \"named\": \x7b\x7d\x7d\x7d\x7d"
    (Value.expression e).Encodable ∧
      Value.ofJson (Value.expression e).toJson = .ok (.expression e) ∧
      Expression.ofDocuments e.template (some positionalText) (some namedText) = .ok e := by
  intro inner e positionalText namedText
  have hinner : inner.Encodable :=
    .expression (fun _ h => nomatch h) (fun _ h => nomatch h) ⟨.nil, fun _ h => nomatch h⟩
  have hcolumn : (Value.column ⟨"id", .segments ["u"]⟩).Encodable :=
    .column ⟨.inr ⟨["u"], by decide, rfl⟩, by decide⟩
  have hlist : (Value.sequence [.literal (.int (-7)), .text "?"]).Encodable := by
    refine .sequence (List.forall_mem_cons.mpr ⟨.literal trivial, ?_⟩)
    exact List.forall_mem_singleton.mpr (.literal trivial)
  have hsign : ":n".toList.head? = some Expression.sigil := by decide
  have he : (Value.expression e).Encodable :=
    .expression (List.forall_mem_cons.mpr ⟨hcolumn, List.forall_mem_singleton.mpr hlist⟩)
      (List.forall_mem_singleton.mpr hinner)
      ⟨List.pairwise_singleton _ _, List.forall_mem_singleton.mpr hsign⟩
  let raw (s : String) : Json.RawText := s.toList.map .char
  have hpositional : Json.tokens? positionalText = some [.openList, .openRecord,
      .string (raw "column"), .colon, .string (raw "u.id"), .closeRecord, .comma, .openList,
      .number ⟨true, [7], [], none⟩, .comma, .string (raw "?"), .closeList, .closeList] := by
    decide +kernel
  have hnamed : Json.tokens? namedText = some [.openRecord, .string (raw ":n"), .colon,
      .openRecord, .string (raw "expression"), .colon, .openRecord, .string (raw "template"),
      .colon, .string (raw "1"), .comma, .string (raw "params"), .colon, .openList, .closeList,
      .comma, .string (raw "named"), .colon, .openRecord, .closeRecord, .closeRecord, .closeRecord,
      .closeRecord] := by
    decide +kernel
  obtain ⟨hread, hdocuments⟩ := Value.read_back he
  obtain ⟨params, named, hnode, htexts⟩ := hdocuments e rfl
  cases hnode
  refine ⟨he, hread, htexts _ _ ?_ ?_⟩
  · rw [Json.parse?, Json.Document.parse?, hpositional]
    rfl
  · rw [Json.parse?, Json.Document.parse?, hnamed]
    rfl

end PortableSql
