import PortableSql.Json.Number

/-!
# Tokens of documents

* `RawText`: the characters and escaped code units of a string; `RawText.text?` is its text, if its
  surrogates are paired.
* **`Token`**.
* `Lexer.State`, `Lexer.step`: one character at a time; a numeral ends where the next token starts.
* **`tokens?`**: the tokens of a text, if it has no other parts.
-/

namespace PortableSql.Json

/-! ## Strings -/

/-- A part of a string: a character, or a code unit written as four hexadecimal digits. -/
inductive RawPart where
  | char (c : Char)
  | unit (n : Nat)
  deriving Repr, DecidableEq

/-- A string as written. -/
abbrev RawText := List RawPart

/-- `n` is the first half of a surrogate pair. -/
def isHigh (n : Nat) : Bool := 0xD800 ≤ n && n < 0xDC00

/-- `n` is the second half of a surrogate pair. -/
def isLow (n : Nat) : Bool := 0xDC00 ≤ n && n < 0xE000

/-- The characters of a string, unless half of a pair stands alone. -/
def RawText.chars? : RawText → Option (List Char)
  | [] => some []
  | .char c :: rest => (RawText.chars? rest).map (c :: ·)
  | [.unit n] => if isHigh n || isLow n then none else some [Char.ofNat n]
  | .unit n :: .char c :: rest =>
    if isHigh n || isLow n then none
    else (RawText.chars? rest).map (Char.ofNat n :: c :: ·)
  | .unit n :: .unit k :: rest =>
    if isHigh n then
      if isLow k then
        (RawText.chars? rest).map (Char.ofNat (0x10000 + (n - 0xD800) * 0x400 + (k - 0xDC00)) :: ·)
      else none
    else if isLow n then none
    else (RawText.chars? (.unit k :: rest)).map (Char.ofNat n :: ·)

/-- **The text of a string**, unless half of a surrogate pair stands alone. -/
def RawText.text? (s : RawText) : Option String := s.chars?.map String.ofList

/-! ## Tokens -/

/-- **A token.** -/
inductive Token where
  | openList | closeList | openRecord | closeRecord | comma | colon
  | null
  | bool (b : Bool)
  | number (n : Numeral)
  | string (s : RawText)
  deriving Repr, DecidableEq

namespace Lexer

/-- How much of an escape has been read. -/
inductive Escape where
  | none
  | started
  | hex (left value : Nat)
  deriving Repr, DecidableEq

/-- Which part of a numeral was read last. -/
inductive Place where
  | sign | zero | whole | point | fraction | mark | exponentSign | exponent
  deriving Repr, DecidableEq

/-- What has been read of the token at hand; digits and parts of strings stand in reverse. -/
inductive State where
  | gap
  | word (left : List Char) (token : Token)
  | string (done : RawText) (escape : Escape)
  | numeral (n : Numeral) (place : Place)
  deriving Repr, DecidableEq

/-- The numeral with its digits in order. -/
def finished (n : Numeral) : Token :=
  .number { n with
    whole := n.whole.reverse
    fraction := n.fraction.reverse
    exponent := n.exponent.map fun (negative, ds) => (negative, ds.reverse) }

/-- The numeral may end here. -/
def Place.isEnd : Place → Bool
  | .zero | .whole | .fraction | .exponent => true
  | _ => false

/-- The value of a hexadecimal digit. -/
def hexValue? (c : Char) : Option Nat :=
  if c.isDigit then some (c.toNat - 48)
  else if 'a' ≤ c ∧ c ≤ 'f' then some (c.toNat - 87)
  else if 'A' ≤ c ∧ c ≤ 'F' then some (c.toNat - 55)
  else none

/-- The character that a one-letter escape stands for. -/
def escaped? : Char → Option Char
  | '"' => some '"'
  | '\\' => some '\\'
  | '/' => some '/'
  | 'b' => some '\x08'
  | 'f' => some '\x0c'
  | 'n' => some '\n'
  | 'r' => some '\r'
  | 't' => some '\t'
  | _ => none

/-- The value of a decimal digit. -/
def digit (c : Char) : Nat := c.toNat - 48

/-- A character between tokens. -/
def start (c : Char) : Option (List Token × State) :=
  if c = ' ' ∨ c = '\t' ∨ c = '\n' ∨ c = '\r' then some ([], .gap)
  else if c = '[' then some ([.openList], .gap)
  else if c = ']' then some ([.closeList], .gap)
  else if c = '\x7b' then some ([.openRecord], .gap)
  else if c = '\x7d' then some ([.closeRecord], .gap)
  else if c = ',' then some ([.comma], .gap)
  else if c = ':' then some ([.colon], .gap)
  else if c = '"' then some ([], .string [] .none)
  else if c = '-' then some ([], .numeral ⟨true, [], [], none⟩ .sign)
  else if c = '0' then some ([], .numeral ⟨false, [0], [], none⟩ .zero)
  else if c.isDigit then some ([], .numeral ⟨false, [digit c], [], none⟩ .whole)
  else if c = 'n' then some ([], .word ['u', 'l', 'l'] .null)
  else if c = 't' then some ([], .word ['r', 'u', 'e'] (.bool true))
  else if c = 'f' then some ([], .word ['a', 'l', 's', 'e'] (.bool false))
  else none

/-- The numeral with one more character, if the character continues it. -/
def extend (n : Numeral) (place : Place) (c : Char) : Option (Numeral × Place) :=
  let more := { n with whole := digit c :: n.whole }
  let moreFraction := { n with fraction := digit c :: n.fraction }
  let moreExponent :=
    { n with exponent := n.exponent.map fun (negative, ds) => (negative, digit c :: ds) }
  match place with
  | .sign => if c = '0' then some (more, .zero) else if c.isDigit then some (more, .whole) else none
  | .point | .fraction =>
    if c.isDigit then some (moreFraction, .fraction)
    else if (c = 'e' ∨ c = 'E') ∧ place = .fraction then
      some ({ n with exponent := some (false, []) }, .mark)
    else none
  | .mark =>
    if c = '+' then some (n, .exponentSign)
    else if c = '-' then some ({ n with exponent := some (true, []) }, .exponentSign)
    else if c.isDigit then some (moreExponent, .exponent)
    else none
  | .exponentSign | .exponent => if c.isDigit then some (moreExponent, .exponent) else none
  | .zero | .whole =>
    if c = '.' then some (n, .point)
    else if c = 'e' ∨ c = 'E' then some ({ n with exponent := some (false, []) }, .mark)
    else if c.isDigit ∧ place = .whole then some (more, .whole)
    else none

/-- A character inside a string. -/
def stepString (done : RawText) (escape : Escape) (c : Char) : Option (List Token × State) :=
  match escape with
  | .none =>
    if c = '"' then some ([.string done.reverse], .gap)
    else if c = '\\' then some ([], .string done .started)
    else if c.toNat < 0x20 then none
    else some ([], .string (.char c :: done) .none)
  | .started =>
    if c = 'u' then some ([], .string done (.hex 4 0))
    else (escaped? c).map fun e => ([], .string (.char e :: done) .none)
  | .hex left value => do
    let d ← hexValue? c
    let value := value * 16 + d
    if left = 1 then some ([], .string (.unit value :: done) .none)
    else some ([], .string done (.hex (left - 1) value))

/-- **One character**: the tokens that end with it, and what has been read of the next one. A digit
right after a whole zero is refused. -/
def step (s : State) (c : Char) : Option (List Token × State) :=
  match s with
  | .gap => start c
  | .word [] _ => none
  | .word (w :: left) token =>
    if c = w then some (if left = [] then ([token], .gap) else ([], .word left token)) else none
  | .string done escape => stepString done escape c
  | .numeral n place =>
    match extend n place c with
    | some (n, place) => some ([], .numeral n place)
    | none =>
      if place.isEnd ∧ ¬ c.isDigit then do
        let (ts, s) ← start c
        return (finished n :: ts, s)
      else none

/-- The tokens from a state on. -/
def run : State → List Char → Option (List Token)
  | .gap, [] => some []
  | .numeral n place, [] => if place.isEnd then some [finished n] else none
  | _, [] => none
  | s, c :: cs => do
    let (ts, s) ← step s c
    return ts ++ (← run s cs)

end Lexer

/-- **The tokens of a text.** -/
def tokens? (text : String) : Option (List Token) := Lexer.run .gap text.toList

end PortableSql.Json
