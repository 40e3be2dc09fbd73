/-! Repetition of a text, and the length that bounds it. -/

namespace DynamicValue

namespace Text

/-- The most bytes a repetition may have. -/
def maxBytes : Nat := 1 <<< 28

/-- The text written `count` times over. Nothing is done for an empty text, however large the
count. -/
def repeated (s : String) (count : Nat) : String :=
  if s.isEmpty then "" else String.join (List.replicate count s)

end Text

end DynamicValue
