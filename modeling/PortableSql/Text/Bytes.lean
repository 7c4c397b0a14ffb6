/-!
# Cutting a text at a byte

* **`takeBytes`**: the characters that end at or before a number of UTF-8 bytes.
-/

namespace PortableSql.Text

/-- The longest initial part of `cs` with at most `n` bytes. -/
def takeBytesChars : Nat → List Char → List Char
  | _, [] => []
  | n, c :: cs => if c.utf8Size ≤ n then c :: takeBytesChars (n - c.utf8Size) cs else []

/-- **The longest initial part of a text with at most `n` bytes.** -/
def takeBytes (n : Nat) (s : String) : String := String.ofList (takeBytesChars n s.toList)

end PortableSql.Text
