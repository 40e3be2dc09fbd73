/-! Searching a text for another one: the leftmost occurrence, and the removal of all occurrences. -/

namespace DynamicValue

namespace Text

/-- The leftmost position of the needle, where the haystack begins at position `start`. -/
def positionFrom? (needle : List Char) (start : Nat) : List Char → Option Nat
  | [] => if needle.isEmpty then some start else none
  | c :: rest =>
    if needle.isPrefixOf (c :: rest) then some start else positionFrom? needle (start + 1) rest

/-- How many characters stand before the leftmost occurrence of the needle. The empty needle
occurs at the start of every text. -/
def position? (needle haystack : List Char) : Option Nat := positionFrom? needle 0 haystack

/-- The text without its first `skip` characters and, in what follows, without the occurrences of
the needle, taken from the left and not overlapping. -/
def removeFrom (needle : List Char) : Nat → List Char → List Char
  | _, [] => []
  | skip + 1, _ :: rest => removeFrom needle skip rest
  | 0, c :: rest =>
    if needle.isPrefixOf (c :: rest) then removeFrom needle (needle.length - 1) rest
    else c :: removeFrom needle 0 rest

/-- The text without the occurrences of the needle, taken from the left and not overlapping. An
occurrence that a removal brings about stays. The empty needle removes nothing. -/
def removeAll (needle haystack : List Char) : List Char :=
  if needle.isEmpty then haystack else removeFrom needle 0 haystack

end Text

end DynamicValue
