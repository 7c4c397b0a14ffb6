import PortableSql.CommandLine.Run
import PortableSql.Proofs.CommandLine.Options
import PortableSql.Proofs.Parameter.Node
import PortableSql.Proofs.Render.Finite

/-!
# The tasks agree

The task is read last, the numbers of documents are finite, and nothing is printed before the last
step that can fail. So it makes no difference to the outcome of a command line which of the tasks
it names, apart from the form in which the result is printed.

* `Value.finite_of_ofJson`, `Expression.finite_of_ofDocuments`: parameters are finite.
* **`Request.Prints`**: what the two tasks print of one request.
* `Request.output_tasks`: a request gives a result with both tasks, or fails alike with both.
* **`run_tasks_agree`**: the outcomes of the two tasks after the same options.
-/

namespace PortableSql

/-! ## Parameters -/

theorem Literal.nonFinite?_ofNumber (n : Json.Number) : (Literal.ofNumber n).nonFinite? = none := by
  cases n with
  | int n => rfl
  | float x =>
    have hfinite := x.finite
    unfold Decimal.isFinite at hfinite
    rcases Decimal.Binary64.ofFloat_cases x.val with ⟨-, hx⟩ | ⟨-, -, hx⟩ | ⟨hnan, hinf, -⟩
    · rw [hx] at hfinite
      cases hfinite
    · rw [hx] at hfinite
      cases hfinite
    · exact NonFinite.ofFloat?_eq_none.mpr ⟨hnan, hinf⟩

theorem Value.finite_of_ofText {tag s : String} {v : Value} (h : Value.ofText tag s = .ok v) :
    v.Finite := by
  intro l hl
  rcases ofText_eq_ok_iff.mp h with ⟨-, rfl⟩ | ⟨-, rfl⟩ | ⟨-, rfl⟩ | ⟨-, rfl⟩ <;> cases hl

/-- The values of nodes are finite. -/
theorem Value.finite_of_ofJson {j : Json} {v : Value} (h : Value.ofJson j = .ok v) : v.Finite :=
  Value.ofJson_induct (.literal rfl) (fun _ => .literal rfl)
    (fun n => .literal (Literal.nonFinite?_ofNumber n)) (fun _ => .literal rfl)
    (fun _ _ _ => finite_of_ofText) (fun _ => .sequence) (fun _ _ => .expression) h

/-- **Templates with the values of documents are finite.** -/
theorem Expression.finite_of_ofDocuments {template : String} {positional named : Option String}
    {e : Expression} (h : Expression.ofDocuments template positional named = .ok e) :
    (Value.expression e).Finite := by
  obtain ⟨vs, ns, hvs, hns, rfl⟩ := ofDocuments_eq_ok_iff.mp h
  rw [fromDocument_eq] at hvs hns
  have hpositional : ∀ v ∈ vs, v.Finite := forall_of_elim hvs fun _ _ h =>
    have ⟨_, _, hvs⟩ := positionalDocument_eq_ok_iff.mp h
    forall_of_valuesOf hvs fun _ _ _ => Value.finite_of_ofJson
  have hnamed : ∀ p ∈ ns, p.2.Finite := forall_of_elim hns fun _ _ h =>
    have ⟨_, _, hns⟩ := namedDocument_eq_ok_iff.mp h
    forall_of_namedOf hns fun _ _ _ => Value.finite_of_ofJson
  obtain ⟨hpositional, hnamed⟩ := forall_bindAll hpositional hnamed template
  exact .expression hpositional hnamed

namespace CommandLine

/-! ## Requests -/

/-- **What the two tasks print of one request**: a compiled text, and a prepared text with its
bound literals, which have the same segments. -/
def Request.Prints (r : Request) (files : String → Option String) (compiled flattened : String) :
    Prop :=
  ∃ c e text p, r.globals.connectionOf files = .ok c ∧
    Expression.ofDocuments r.template r.positional r.named = .ok e ∧
    (Value.expression e).compile (.configured c) = .ok text ∧
    (Value.expression e).prepare (.configured c) = .ok p ∧ p.SameSegments (.configured c) text ∧
    compiled = text ++ "\n" ∧ flattened = p.sql ++ "\n" ++ Json.ofLiterals p.binds ++ "\n"

/-- Tasks render alike: both give a result, or both fail with the same error. -/
theorem Task.render_of_finite {v : Value} (h : v.Finite) (d : Dialect) :
    (∃ text p, v.compile d = .ok text ∧ v.prepare d = .ok p ∧ p.SameSegments d text ∧
      Task.compile.render d v = .ok (text ++ "\n") ∧
      Task.flatten.render d v = .ok (p.sql ++ "\n" ++ Json.ofLiterals p.binds ++ "\n")) ∨
    ∃ e, Task.compile.render d v = .error e ∧ Task.flatten.render d v = .error e := by
  rcases h.render d with ⟨text, p, htext, hp, hsame⟩ | ⟨e, htext, hp⟩
  · exact .inl ⟨text, p, htext, hp, hsame, bind_eq_ok_iff.mpr ⟨text, htext, rfl⟩,
      bind_eq_ok_iff.mpr ⟨p, hp, rfl⟩⟩
  · exact .inr ⟨e, congrArg (· >>= _) htext, congrArg (· >>= _) hp⟩

/-- A request with a connection and a template is printed by its task. -/
theorem Request.output_of_ok {r : Request} {files : String → Option String} {c : Connection}
    {e : Expression} (hc : r.globals.connectionOf files = .ok c)
    (he : Expression.ofDocuments r.template r.positional r.named = .ok e) :
    r.output files = (r.task.render (.configured c) (.expression e)).mapError .render := by
  rw [output, hc, he]
  rfl

/-- A request gives a result with both tasks, or fails alike with both. -/
theorem Request.output_tasks (r : Request) (files : String → Option String) :
    (∃ compiled flattened, r.Prints files compiled flattened ∧
      (r.withTask .compile).output files = .ok compiled ∧
      (r.withTask .flatten).output files = .ok flattened) ∨
    ∃ e, (r.withTask .compile).output files = .error e ∧
      (r.withTask .flatten).output files = .error e := by
  cases hc : r.globals.connectionOf files with
  | error e => exact .inr ⟨e, congrArg (· >>= _) hc, congrArg (· >>= _) hc⟩
  | ok c =>
    cases he : Expression.ofDocuments r.template r.positional r.named with
    | error e =>
      refine .inr ⟨.parameters e, ?_, ?_⟩ <;>
      · rw [output, withTask, hc, he]
        rfl
    | ok e =>
      rw [output_of_ok (r := r.withTask .compile) hc he,
        output_of_ok (r := r.withTask .flatten) hc he]
      rcases Task.render_of_finite (Expression.finite_of_ofDocuments he) (.configured c) with
        ⟨text, p, htext, hp, hsame, hcompile, hflatten⟩ | ⟨err, hcompile, hflatten⟩
      · exact .inl ⟨_, _, ⟨c, e, text, p, hc, he, htext, hp, hsame, rfl, rfl⟩,
          mapError_eq_ok_iff.mpr hcompile, mapError_eq_ok_iff.mpr hflatten⟩
      · exact .inr ⟨.render err, congrArg _ hcompile, congrArg _ hflatten⟩

/-! ## Command lines -/

section

variable {args : List String} {environment : Option String} {files : String → Option String}

theorem run_of_refused (h : Invocation.ofArguments args environment = .refused) :
    run args environment files = ⟨2, "", none⟩ := by
  rw [run, h]

theorem run_of_ok {r : Request} {text : String}
    (h : Invocation.ofArguments args environment = .request r) (ho : r.output files = .ok text) :
    run args environment files = ⟨0, text, none⟩ := by
  simp only [run, h, ho]

theorem run_of_error {r : Request} {e : CommandError}
    (h : Invocation.ofArguments args environment = .request r) (ho : r.output files = .error e) :
    run args environment files = ⟨1, "", some e.message⟩ := by
  simp only [run, h, ho]

end

/-- **The tasks agree.** After the same options and with the same arguments after them, both tasks
end with the same code. If it is not zero, nothing is printed and the error is the same; if it is
zero, they print what they print of one request. -/
theorem run_tasks_agree {before : List String} (h : Options before) (after : List String)
    (environment : Option String) (files : String → Option String) :
    let compiled := run (before ++ "compile" :: after) environment files
    let flattened := run (before ++ "flatten" :: after) environment files
    compiled.code = flattened.code ∧ compiled.error = flattened.error ∧
      (compiled.code ≠ 0 → compiled.output = "" ∧ flattened.output = "") ∧
      (compiled.code = 0 → ∃ r : Request,
        Invocation.ofArguments (before ++ "compile" :: after) environment = .request r ∧
          r.Prints files compiled.output flattened.output) := by
  intro compiled flattened
  have hflatten := Invocation.ofArguments_options h after environment .compile .flatten
  have hcompile := Invocation.ofArguments_options h after environment .compile .compile
  have hversion := Invocation.ofArguments_options_ne_version h after environment .compile
  simp only [Task.name] at hflatten hcompile hversion
  cases hi : Invocation.ofArguments (before ++ "compile" :: after) environment with
  | version => exact absurd hi hversion
  | refused =>
    rw [hi] at hflatten
    have hc : compiled = ⟨2, "", none⟩ := run_of_refused hi
    have hf : flattened = ⟨2, "", none⟩ := run_of_refused hflatten.symm
    rw [hc, hf]
    exact ⟨rfl, rfl, fun _ => ⟨rfl, rfl⟩, nofun⟩
  | request r =>
    rw [hi] at hflatten hcompile
    rcases r.output_tasks files with ⟨text, lines, hprints, hcok, hfok⟩ | ⟨e, hcerr, hferr⟩
    · have hc : compiled = ⟨0, text, none⟩ := run_of_ok (hi.trans hcompile.symm) hcok
      have hf : flattened = ⟨0, lines, none⟩ := run_of_ok hflatten.symm hfok
      rw [hc, hf]
      exact ⟨rfl, rfl, nofun, fun _ => ⟨r, rfl, hprints⟩⟩
    · have hc : compiled = ⟨1, "", some e.message⟩ := run_of_error (hi.trans hcompile.symm) hcerr
      have hf : flattened = ⟨1, "", some e.message⟩ := run_of_error hflatten.symm hferr
      rw [hc, hf]
      exact ⟨rfl, rfl, fun _ => ⟨rfl, rfl⟩, nofun⟩

/-- Options of two spellings, and nodes in both documents. -/
theorem run_tasks_agree_prefixed :
    let before := ["-d", "postgres", "--prefix=app_"]
    let after := ["a = ? AND t = :t", "--params", "[7]",
      "--named=\x7b\"t\": \x7b\"table\": \"users\"\x7d\x7d"]
    let compiled := run (before ++ "compile" :: after) none fun _ => none
    let flattened := run (before ++ "flatten" :: after) none fun _ => none
    Options before ∧ compiled = ⟨0, "a = 7 AND t = \"app_users\"\n", none⟩ ∧
      flattened = ⟨0, "a = $1 AND t = \"app_users\"\n[7]\n", none⟩ ∧ ∃ r : Request,
        Invocation.ofArguments (before ++ "compile" :: after) none = .request r ∧
          r.Prints (fun _ => none) compiled.output flattened.output := by
  intro before after compiled flattened
  have hoptions : Options before := .valued "postgres" rfl (.complete rfl .nil)
  have hc : compiled = ⟨0, "a = 7 AND t = \"app_users\"\n", none⟩ := by decide +kernel
  have hf : flattened = ⟨0, "a = $1 AND t = \"app_users\"\n[7]\n", none⟩ := by decide +kernel
  obtain ⟨-, -, -, hprints⟩ := run_tasks_agree hoptions after none fun _ => none
  exact ⟨hoptions, hc, hf, hprints (congrArg Outcome.code hc)⟩

end CommandLine

end PortableSql
