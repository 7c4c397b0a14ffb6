import PortableSql.CommandLine.Arguments

/-!
# Options before the task

Options are read one after the other, whatever comes after them, so that the task has no part in
what they say.

* `Word.awaits`, `Word.isComplete`: an option whose value is the next argument, and any other one.
* **`Options`**: arguments that are options with their values.
* `Globals.letters_of_awaits`, `Globals.letters_of_isComplete`: what is left after short options.
* **`Globals.read_options`**: options are refused, or leave options that have been read.
* **`Invocation.ofArguments_options`**: with options before it, the name of the task decides about
  the task and nothing else.
-/

namespace PortableSql.CommandLine

/-! ## Options as arguments -/

/-- The option takes its value from the next argument: a long one without a value, or letters that
end with one that takes a value. -/
def Word.awaits : Word → Bool
  | .long name none => (Setting.ofLong? name).isSome
  | .short cs => match cs.dropWhile (· = 'v') with
    | [c] => (Setting.ofLetter? c).isSome
    | _ => false
  | _ => false

/-- The option needs no further argument: it is for verbosity, or its value stands in it. -/
def Word.isComplete : Word → Bool
  | .long name none => name = "verbose".toList
  | .long name (some _) => (Setting.ofLong? name).isSome
  | .short cs => match cs.dropWhile (· = 'v') with
    | [] => true
    | [_] => false
    | c :: _ :: _ => (Setting.ofLetter? c).isSome
  | _ => false

/-- **Arguments that are options with their values**, of any spelling, in any order and with any
values. -/
inductive Options : List String → Prop
  | nil : Options []
  | complete {arg : String} {args : List String} (h : (Word.of arg).isComplete = true)
    (hargs : Options args) : Options (arg :: args)
  | valued {arg : String} (value : String) {args : List String} (h : (Word.of arg).awaits = true)
    (hargs : Options args) : Options (arg :: value :: args)

/-! ## Reading them -/

namespace Globals

/-- Letters for verbosity are refused, or leave the letters after them. -/
theorem letters_dropWhile (g : Globals) (cs : List Char) :
    g.letters cs = .refused ∨
      ∃ g' : Globals, g.letters cs = g'.letters (cs.dropWhile (· = 'v')) := by
  induction cs generalizing g with
  | nil => exact .inr ⟨g, rfl⟩
  | cons c cs ih =>
    by_cases hc : c = 'v'
    · subst hc
      rw [List.dropWhile_cons_of_pos (by simp), letters, if_neg (by decide), if_pos rfl]
      cases g.setVerbose with
      | none => exact .inl rfl
      | some g' => exact ih g'
    · exact .inr ⟨g, by rw [List.dropWhile_cons_of_neg (by simpa using hc)]⟩

/-- The letter of an option that takes a value ends the letters. -/
theorem letters_of_ofLetter? (g : Globals) {c : Char} {s : Setting}
    (hs : Setting.ofLetter? c = some s) :
    g.letters [c] = .globals g (some s) ∧ ∀ a as,
      g.letters (c :: a :: as) = .refused ∨ ∃ g', g.letters (c :: a :: as) = .globals g' none := by
  have hV : c ≠ 'V' := by
    rintro rfl
    cases hs
  have hv : c ≠ 'v' := by
    rintro rfl
    cases hs
  refine ⟨by simp [letters, hV, hv, hs], fun a as => ?_⟩
  cases hg : g.set s (attached (a :: as)) with
  | none => exact .inl (by simp [letters, hV, hv, hs, hg])
  | some g' => exact .inr ⟨g', by simp [letters, hV, hv, hs, hg]⟩

/-- What is left after short options that await a value. -/
theorem letters_of_awaits (g : Globals) {cs : List Char} (h : (Word.short cs).awaits = true) :
    g.letters cs = .refused ∨ ∃ g' s, g.letters cs = .globals g' (some s) := by
  refine (g.letters_dropWhile cs).imp_right fun ⟨g', hg'⟩ => ?_
  rw [Word.awaits] at h
  split at h
  case h_1 c hc =>
    obtain ⟨s, hs⟩ := Option.isSome_iff_exists.mp h
    exact ⟨g', s, by rw [hg', hc, (letters_of_ofLetter? g' hs).1]⟩
  case h_2 => cases h

/-- What is left after short options that need no further argument. -/
theorem letters_of_isComplete (g : Globals) {cs : List Char}
    (h : (Word.short cs).isComplete = true) :
    g.letters cs = .refused ∨ ∃ g', g.letters cs = .globals g' none := by
  rcases g.letters_dropWhile cs with hg | ⟨g', hg'⟩
  · exact .inl hg
  · rw [Word.isComplete] at h
    rw [hg']
    split at h
    case h_1 hc =>
      rw [hc]
      exact .inr ⟨g', rfl⟩
    case h_2 => cases h
    case h_3 c a as hc =>
      obtain ⟨s, hs⟩ := Option.isSome_iff_exists.mp h
      rw [hc]
      exact (letters_of_ofLetter? g' hs).2 a as

/-- Reading arguments is refused, or goes on after them with other options read. -/
def ReadsOn (g : Globals) (pending : Option Setting) (args : List String) : Prop :=
  (∀ rest, g.read pending (args ++ rest) = .refused) ∨
    ∃ g' : Globals, ∀ rest, g.read pending (args ++ rest) = g'.read none rest

/-- An option that needs no further argument. -/
theorem readsOn_complete (g : Globals) {arg : String} (h : (Word.of arg).isComplete = true) :
    g.ReadsOn none [arg] := by
  cases hw : Word.of arg with
  | escape => rw [hw] at h; cases h
  | plain => rw [hw] at h; cases h
  | short cs =>
    rw [hw] at h
    rcases g.letters_of_isComplete h with hg | ⟨g', hg⟩
    · exact .inl fun rest => by simp [read, hw, hg]
    · exact .inr ⟨g', fun rest => by simp [read, hw, hg]⟩
  | long name value =>
    rw [hw] at h
    cases value with
    | none =>
      obtain rfl : name = "verbose".toList := of_decide_eq_true h
      cases hg : g.setVerbose with
      | none =>
        exact .inl fun rest => by simp [read, hw, hg]
      | some g' =>
        exact .inr ⟨g', fun rest => by
          simp [read, hw, hg]⟩
    | some value =>
      cases hg : (Setting.ofLong? name).bind (g.set · value) with
      | none => exact .inl fun rest => by simp [read, hw, hg]
      | some g' => exact .inr ⟨g', fun rest => by simp [read, hw, hg]⟩

/-- A setting with the argument that is read as its value. -/
theorem readsOn_pending (g : Globals) (s : Setting) (value : String) :
    g.ReadsOn (some s) [value] := by
  cases hw : Word.of value with
  | plain =>
    cases hg : g.set s value with
    | none => exact .inl fun rest => by simp [read, hw, hg]
    | some g' => exact .inr ⟨g', fun rest => by simp [read, hw, hg]⟩
  | escape => exact .inl fun rest => by simp [read, hw]
  | short cs => exact .inl fun rest => by simp [read, hw]
  | long name o => exact .inl fun rest => by simp [read, hw]

/-- An option with the value after it. -/
theorem readsOn_valued (g : Globals) {arg : String} (value : String)
    (h : (Word.of arg).awaits = true) : g.ReadsOn none [arg, value] := by
  -- the argument is refused, or leaves a setting that waits for the value
  have hread : (∀ rest, g.read none (arg :: rest) = .refused) ∨
      ∃ (g' : Globals) (s : Setting), ∀ rest,
        g.read none (arg :: rest) = g'.read (some s) rest := by
    cases hw : Word.of arg with
    | escape => rw [hw] at h; cases h
    | plain => rw [hw] at h; cases h
    | short cs =>
      rw [hw] at h
      rcases g.letters_of_awaits h with hg | ⟨g', s, hg⟩
      · exact .inl fun rest => by simp [read, hw, hg]
      · exact .inr ⟨g', s, fun rest => by simp [read, hw, hg]⟩
    | long name o =>
      rw [hw] at h
      cases o with
      | some _ => cases h
      | none =>
        obtain ⟨s, hs⟩ := Option.isSome_iff_exists.mp h
        have hversion : name ≠ "version".toList := by
          rintro rfl
          cases hs
        have hverbose : name ≠ "verbose".toList := by
          rintro rfl
          cases hs
        exact .inr ⟨g, s, fun rest => by
          simp only [read, hw, if_neg hversion, if_neg hverbose, hs]⟩
  rcases hread with hread | ⟨g', s, hread⟩
  · exact .inl fun rest => hread (value :: rest)
  · rcases g'.readsOn_pending s value with h' | ⟨g'', h'⟩
    · exact .inl fun rest => (hread (value :: rest)).trans (h' rest)
    · exact .inr ⟨g'', fun rest => (hread (value :: rest)).trans (h' rest)⟩

theorem ReadsOn.append {g : Globals} {pending : Option Setting} {as bs : List String}
    (h : g.ReadsOn pending as) (hbs : ∀ g' : Globals, g'.ReadsOn none bs) :
    g.ReadsOn pending (as ++ bs) := by
  rcases h with h | ⟨g', h⟩
  · exact .inl fun rest => by rw [List.append_assoc, h]
  · rcases hbs g' with hg' | ⟨g'', hg''⟩
    · exact .inl fun rest => by rw [List.append_assoc, h, hg']
    · exact .inr ⟨g'', fun rest => by rw [List.append_assoc, h, hg'']⟩

/-- **Options are refused, or leave options that have been read.** -/
theorem read_options {args : List String} (h : Options args) (g : Globals) :
    g.ReadsOn none args := by
  induction h generalizing g with
  | nil => exact .inr ⟨g, fun _ => rfl⟩
  | complete h _ ih => exact (g.readsOn_complete h).append ih
  | valued value h _ ih => exact (g.readsOn_valued value h).append ih

end Globals

/-! ## The task after them -/

/-- The name of a task. -/
def Task.name : Task → String
  | .compile => "compile"
  | .flatten => "flatten"

theorem Task.ofName?_name (task : Task) : Task.ofName? task.name = some task := by
  cases task <;> rfl

theorem Word.of_name (task : Task) : Word.of task.name = .plain := by
  cases task <;> rfl

/-- The request with another task. -/
def Request.withTask (r : Request) (task : Task) : Request := { r with task := task }

/-- The same meaning with another task. -/
def Invocation.withTask (task : Task) : Invocation → Invocation
  | .request r => .request (r.withTask task)
  | other => other

theorem Globals.read_name (g : Globals) (task : Task) (args : List String) :
    g.read none (task.name :: args) = finish g task (Parameters.read {} none args) := by
  simp only [read, Word.of_name, Task.ofName?_name]

theorem finish_withTask (g : Globals) (task task' : Task) (p : Option Parameters) :
    (finish g task p).withTask task' = finish g task' p := by
  rcases p with _ | ⟨_ | template, positional, named⟩ <;> rfl

theorem finish_ne_version (g : Globals) (task : Task) (p : Option Parameters) :
    finish g task p ≠ .version := by
  rcases p with _ | ⟨_ | template, positional, named⟩ <;> exact nofun

/-- The configuration of the environment is chosen whatever the task. -/
theorem Request.withEnvironment_withTask (r : Request) (task : Task)
    (environment : Option String) :
    (r.withTask task).withEnvironment environment =
      (r.withEnvironment environment).withTask task := by
  unfold withEnvironment
  cases hc : r.globals.config with
  | some path => simp [withTask, hc, Invocation.withTask]
  | none =>
    cases environment with
    | none => simp [withTask, hc, Invocation.withTask]
    | some path =>
      cases hg : r.globals.set .config path <;> simp [withTask, hc, hg, Invocation.withTask]

theorem Request.withEnvironment_ne_version (r : Request) (environment : Option String) :
    r.withEnvironment environment ≠ .version := by
  unfold withEnvironment
  split
  · split <;> exact nofun
  · exact nofun

namespace Invocation

/-- The name of the task after options is read last, with the arguments of the task. -/
theorem read_options {before : List String} (h : Options before) (after : List String) :
    (∀ task : Task, Globals.read {} none (before ++ task.name :: after) = .refused) ∨
      ∃ g : Globals, ∀ task : Task, Globals.read {} none (before ++ task.name :: after) =
        finish g task (Parameters.read {} none after) :=
  (Globals.read_options h {}).imp (fun hg task => hg (task.name :: after)) fun ⟨g, hg⟩ =>
    ⟨g, fun task => (hg (task.name :: after)).trans (g.read_name task after)⟩

/-- **With options before it, the name of the task decides about the task and nothing else.** -/
theorem ofArguments_options {before : List String} (h : Options before) (after : List String)
    (environment : Option String) (task task' : Task) :
    (ofArguments (before ++ task.name :: after) environment).withTask task' =
      ofArguments (before ++ task'.name :: after) environment := by
  unfold ofArguments
  rcases read_options h after with hread | ⟨g, hread⟩
  · rw [hread, hread]
    rfl
  · rw [hread task, hread task', ← finish_withTask g task task']
    cases hf : finish g task (Parameters.read {} none after) with
    | refused => rfl
    | version => exact absurd hf (finish_ne_version g task _)
    | request r => exact (r.withEnvironment_withTask task' environment).symm

/-- Options before the task do not ask for the version. -/
theorem ofArguments_options_ne_version {before : List String} (h : Options before)
    (after : List String) (environment : Option String) (task : Task) :
    ofArguments (before ++ task.name :: after) environment ≠ .version := by
  unfold ofArguments
  rcases read_options h after with hread | ⟨g, hread⟩
  · rw [hread]
    exact nofun
  · rw [hread]
    cases hf : finish g task (Parameters.read {} none after) with
    | refused => exact nofun
    | version => exact absurd hf (finish_ne_version g task _)
    | request r => exact r.withEnvironment_ne_version environment

end Invocation

end PortableSql.CommandLine
