/-! The binary operators of expressions, by what they do: calculate, compare, or look for a member. -/

namespace DynamicValue

inductive Arithmetic where
  | add
  | subtract
  | multiply
  | divide
deriving DecidableEq

/-- The six tests. Their answer is the number one or zero, for want of a truth value. -/
inductive Comparison where
  | equal
  | notEqual
  | less
  | lessOrEqual
  | greater
  | greaterOrEqual
deriving DecidableEq

inductive Operator where
  | arithmetic (op : Arithmetic)
  | comparison (test : Comparison)
  | member
deriving DecidableEq

/-- The operator as written in an expression. -/
def Arithmetic.symbol : Arithmetic → String
  | .add => "+"
  | .subtract => "-"
  | .multiply => "*"
  | .divide => "/"

def Comparison.symbol : Comparison → String
  | .equal => "=="
  | .notEqual => "!="
  | .less => "<"
  | .lessOrEqual => "<="
  | .greater => ">"
  | .greaterOrEqual => ">="

namespace Operator

def symbol : Operator → String
  | .arithmetic op => op.symbol
  | .comparison test => test.symbol
  | .member => "in"

/-- The operator as the log names it. -/
def name : Operator → String
  | .arithmetic .add => "Add"
  | .arithmetic .subtract => "Sub"
  | .arithmetic .multiply => "Mul"
  | .arithmetic .divide => "Div"
  | .comparison .equal => "Eq"
  | .comparison .notEqual => "NotEq"
  | .comparison .less => "Lt"
  | .comparison .lessOrEqual => "LtEq"
  | .comparison .greater => "Gt"
  | .comparison .greaterOrEqual => "GtEq"
  | .member => "In"

def all : List Operator :=
  [.arithmetic .add, .arithmetic .subtract, .arithmetic .multiply, .arithmetic .divide,
    .comparison .equal, .comparison .notEqual, .comparison .less, .comparison .lessOrEqual,
    .comparison .greater, .comparison .greaterOrEqual, .member]

theorem mem_all (op : Operator) : op ∈ all := by
  rcases op with op | test | _
  · cases op <;> simp [all]
  · cases test <;> simp [all]
  · simp [all]

/-- The operator with the given log name. -/
def ofName? (name : String) : Option Operator := all.find? (·.name == name)

end Operator

end DynamicValue
