import PortableSql.Json.Token

/-!
# Documents as written

* **`Document`**: a value with its numerals and strings as written and the members of a record in
  their order, repeated names included.
* `Reader.Frame`, `Reader.Place`, `Reader.step`: one token at a time, with the open lists and
  records on a stack.
* **`Document.parse?`**: the document of a text, which may be limited in its nesting.
-/

namespace PortableSql.Json

/-- **A document as written.** -/
inductive Document where
  | null
  | bool (b : Bool)
  | number (n : Numeral)
  | string (s : RawText)
  | list (items : List Document)
  | record (members : List (RawText × Document))

namespace Reader

/-- An open list or record; what it holds so far stands in reverse. -/
inductive Frame where
  | list (done : List Document)
  | record (done : List (RawText × Document)) (name : RawText)

/-- What may come next, with what the innermost list or record holds so far. -/
inductive Place where
  | value
  | firstItem
  | afterItem (done : List Document)
  | firstName
  | name (done : List (RawText × Document))
  | colon (done : List (RawText × Document)) (name : RawText)
  | afterMember (done : List (RawText × Document))
  | finished (d : Document)

/-- The open lists and records, innermost first, and what may come next. -/
structure State where
  frames : List Frame
  place : Place

/-- A value is complete. -/
def deliver (d : Document) : List Frame → State
  | [] => ⟨[], .finished d⟩
  | .list done :: frames => ⟨frames, .afterItem (d :: done)⟩
  | .record done name :: frames => ⟨frames, .afterMember ((name, d) :: done)⟩

/-- Another list or record may be opened. -/
def mayOpen (limit : Option Nat) (frames : List Frame) : Bool :=
  match limit with
  | none => true
  | some n => frames.length < n

/-- A token where a value is due. -/
def startValue (limit : Option Nat) (frames : List Frame) : Token → Option State
  | .null => some (deliver .null frames)
  | .bool b => some (deliver (.bool b) frames)
  | .number n => some (deliver (.number n) frames)
  | .string s => some (deliver (.string s) frames)
  | .openList => if mayOpen limit frames then some ⟨frames, .firstItem⟩ else none
  | .openRecord => if mayOpen limit frames then some ⟨frames, .firstName⟩ else none
  | _ => none

/-- **One token.** -/
def step (limit : Option Nat) (s : State) (t : Token) : Option State :=
  match s.place, t with
  | .value, t => startValue limit s.frames t
  | .firstItem, .closeList => some (deliver (.list []) s.frames)
  | .firstItem, t => startValue limit (.list [] :: s.frames) t
  | .afterItem done, .comma => some ⟨.list done :: s.frames, .value⟩
  | .afterItem done, .closeList => some (deliver (.list done.reverse) s.frames)
  | .firstName, .closeRecord => some (deliver (.record []) s.frames)
  | .firstName, .string name => some ⟨s.frames, .colon [] name⟩
  | .name done, .string name => some ⟨s.frames, .colon done name⟩
  | .colon done name, .colon => some ⟨.record done name :: s.frames, .value⟩
  | .afterMember done, .comma => some ⟨s.frames, .name done⟩
  | .afterMember done, .closeRecord => some (deliver (.record done.reverse) s.frames)
  | _, _ => none

/-- The state after all tokens. -/
def run (limit : Option Nat) (s : State) : List Token → Option State
  | [] => some s
  | t :: ts => (step limit s t).bind fun s => run limit s ts

end Reader

/-- The document of tokens, with at most `limit` lists and records inside each other. -/
def Document.ofTokens? (limit : Option Nat) (ts : List Token) : Option Document :=
  match Reader.run limit ⟨[], .value⟩ ts with
  | some ⟨_, .finished d⟩ => some d
  | _ => none

/-- **The document of a text.** -/
def Document.parse? (limit : Option Nat) (text : String) : Option Document :=
  (tokens? text).bind (Document.ofTokens? limit)

end PortableSql.Json
