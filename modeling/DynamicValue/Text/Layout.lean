import DynamicValue.Text.Bracketed

/-! The layouts of diagnostics: all on one line, or the parts of a list on lines of their own. -/

namespace DynamicValue

inductive Layout where
  | compact
  | expanded
deriving DecidableEq

namespace Text

/-- Four spaces ahead of each line, where a line begins behind a line break, and at the first
character if the text is to begin one. -/
def indentFrom (lineStart : Bool) : List Char → List Char
  | [] => []
  | c :: rest => (if lineStart then List.replicate 4 ' ' else []) ++ c :: indentFrom (c == '\n') rest

def indent (s : String) : String := String.ofList (indentFrom true s.toList)

/-- A list of parts. Expanded, each part is followed by a comma and a line break, and each of its
lines is indented. -/
def listed (layout : Layout) (parts : List String) : String :=
  match layout with
  | .compact => bracketed parts
  | .expanded =>
    if parts.isEmpty then "[]"
    else "[\n" ++ String.join (parts.map fun part => indent (part ++ ",\n")) ++ "]"

end Text

end DynamicValue
