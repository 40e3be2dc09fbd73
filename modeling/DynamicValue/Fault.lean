import DynamicValue.Text.Bracketed
import DynamicValue.Text.Quoted

/-! The faults of value operations: what caused them, the message, and notes added on the way out. -/

namespace DynamicValue

/-- What went wrong. Names of kinds, operators and operations stand as they appear in messages. -/
inductive Fault.Cause where
  /-- Arithmetic between two lists of different lengths. -/
  | shapeMismatch (left right : Nat)
  /-- A value was needed as a number and is none. -/
  | typeMismatch (context got : String)
  /-- An index outside the bounds of a list, where indexes do not wrap. -/
  | indexOutOfRange (index : Int) (len : Nat)
  /-- A remainder by zero. -/
  | arithmeticFault (operation : String)
  /-- An operation that is known but never provided. -/
  | unsupportedOperation (operation : String)
  /-- A text result would have more bytes than a text may have. -/
  | stringTooLong (limit : Nat)
  /-- An operator does not apply to values of these kinds. -/
  | invalidOperand (op left right : String)
deriving DecidableEq

/-- A cause, and the notes attached to it in the order they were added. -/
structure Fault where
  cause : Fault.Cause
  notes : List String := []
deriving DecidableEq

namespace Fault

namespace Cause

def name : Cause → String
  | .shapeMismatch .. => "ShapeMismatch"
  | .typeMismatch .. => "TypeMismatch"
  | .indexOutOfRange .. => "IndexOutOfRange"
  | .arithmeticFault .. => "ArithmeticFault"
  | .unsupportedOperation .. => "UnsupportedOperation"
  | .stringTooLong .. => "StringTooLong"
  | .invalidOperand .. => "InvalidOperand"

def message : Cause → String
  | .shapeMismatch left right =>
    "cannot operate on lists of uneven sizes (" ++ left.repr ++ " and " ++ right.repr ++ ")"
  | .typeMismatch context got => "expected a number as " ++ context ++ ", got " ++ got
  | .indexOutOfRange index len =>
    "index " ++ index.repr ++ " out of range for list of length " ++ len.repr
  | .arithmeticFault operation => "division by zero in " ++ operation
  | .unsupportedOperation operation => "unsupported operation: " ++ operation
  | .stringTooLong limit => "string result exceeds the limit of " ++ limit.repr ++ " bytes"
  | .invalidOperand op left right =>
    "operator `" ++ op ++ "` cannot be applied to " ++ left ++ " and " ++ right

/-- The data of the cause, with texts quoted. -/
def fields : Cause → List (String × String)
  | .shapeMismatch left right => [("left", left.repr), ("right", right.repr)]
  | .typeMismatch context got => [("context", Text.quote context), ("got", Text.quote got)]
  | .indexOutOfRange index len => [("index", index.repr), ("len", len.repr)]
  | .arithmeticFault operation => [("operation", Text.quote operation)]
  | .unsupportedOperation operation => [("operation", Text.quote operation)]
  | .stringTooLong limit => [("limit", limit.repr)]
  | .invalidOperand op left right =>
    [("op", Text.quote op), ("left", Text.quote left), ("right", Text.quote right)]

end Cause

/-- A name and its fields in braces, on one line. -/
def inspectRecord (name : String) (fields : List (String × String)) : String :=
  let parts := fields.map fun (field, text) => field ++ ": " ++ text
  name ++ " \x7b " ++ ", ".intercalate parts ++ " \x7d"

def message (fault : Fault) : String := fault.cause.message

def addNote (fault : Fault) (note : String) : Fault :=
  { fault with notes := fault.notes ++ [note] }

/-- The message, followed by each note on an indented line of its own. -/
def render (fault : Fault) : String :=
  fault.message ++ String.join (fault.notes.map ("\n  note: " ++ ·))

/-- The diagnostic text: cause, message and notes on one line. -/
def inspect (fault : Fault) : String :=
  inspectRecord "EvalError" [
    ("kind", inspectRecord fault.cause.name fault.cause.fields),
    ("message", Text.quote fault.message),
    ("notes", Text.bracketed (fault.notes.map Text.quote))]

end Fault

end DynamicValue
