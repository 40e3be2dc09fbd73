import DynamicValue.Text.Glyph

/-! Text between double quotes, as diagnostics write it: one line, whatever the text holds. -/

namespace DynamicValue

namespace Text

/-- The character as it stands in a quoted text: the quote, the backslash and four controls have
short escapes, other characters without a glyph are written as their code point in hexadecimal.
A single quote stands for itself. -/
def escape (c : Char) : List Char :=
  match c with
  | '\x00' => ['\\', '0']
  | '\t' => ['\\', 't']
  | '\r' => ['\\', 'r']
  | '\n' => ['\\', 'n']
  | '"' => ['\\', '"']
  | '\\' => ['\\', '\\']
  | c =>
    if hasGlyph c then [c]
    else ['\\', 'u', '\x7b'] ++ Nat.toDigits 16 c.toNat ++ ['\x7d']

/-- The text in double quotes, each character escaped on its own. -/
def quote (s : String) : String := String.ofList ('"' :: s.toList.flatMap escape ++ ['"'])

end Text

end DynamicValue
