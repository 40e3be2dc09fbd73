import DynamicValue.Operator

/-! What operations report about themselves while they run. -/

namespace DynamicValue

/-- The kinds of value. -/
inductive Kind where
  | null
  | number
  | text
  | list
deriving DecidableEq

/-- The kind as it appears in messages and in the log. -/
def Kind.name : Kind → String
  | .null => "null"
  | .number => "number"
  | .text => "string"
  | .list => "list"

/-- An entry of the log. -/
inductive Event where
  /-- An operator is about to be evaluated on values of these kinds. -/
  | evaluation (left right : Kind) (op : Operator)
  /-- Arithmetic met two lists of different lengths. -/
  | shapeMismatch (op : Arithmetic) (left right : Nat)
  /-- A list was appended, its elements going ahead of it. -/
  | spliced (count : Nat)
  /-- An insertion that began at `start`, as given, ran past the end of the list. -/
  | spilled (start : Int) (grewBy : Nat)
deriving DecidableEq

namespace Event

/-- An evaluation spans what happens during it; all other entries stand for a moment. -/
def isSpan : Event → Bool
  | .evaluation .. => true
  | _ => false

def name : Event → String
  | .evaluation .. => "evaluate_binary"
  | .shapeMismatch .. => "list arithmetic shape mismatch"
  | .spliced _ => "flattening list before append"
  | .spilled .. => "insert spilled past end of list"

def level : Event → String
  | .shapeMismatch .. => "DEBUG"
  | _ => "TRACE"

/-- The data of the entry, as text. -/
def fields : Event → List (String × String)
  | .evaluation left right op => [("left", left.name), ("right", right.name), ("op", op.name)]
  | .shapeMismatch op left right =>
    [("op", op.symbol), ("left", left.repr), ("right", right.repr)]
  | .spliced count => [("spliced", count.repr)]
  | .spilled start grewBy => [("start", start.repr), ("grew_by", grewBy.repr)]

end Event

end DynamicValue
