/-!
# Overloadable operators

User-defined operators are methods with fixed names such as `op_Addition`.  A diagnostic never
shows these names; it shows the operator itself.  Conversions and the two hooks for equality and
comparison are recognised too, but have no symbol to show.

## Main definitions

* `DisplayNames.Operator` — the operators.
* `DisplayNames.Operator.ofMethodName` — the operator that a method name stands for.
* `DisplayNames.Operator.symbol?` — what is displayed for it.
-/

set_option relaxedAutoImplicit false
set_option autoImplicit false

namespace DisplayNames

/-- The operators that a method can overload; `unknown` is no operator. -/
inductive Operator where
  | unknown
  | plus
  | negate
  | logicalNot
  | bitNot
  | increment
  | decrement
  | isTrue
  | isFalse
  | add
  | subtract
  | multiply
  | divide
  | modulo
  | bitAnd
  | bitOr
  | bitXor
  | shiftLeft
  | shiftRight
  | equal
  | notEqual
  | less
  | lessEqual
  | greater
  | greaterEqual
  | implicit
  | explicit
  | equals
  | compare
  deriving DecidableEq, Repr

namespace Operator

/-- The word for an operator. -/
def word : Operator → String
  | .unknown => "NONE"
  | .plus => "UPLUS"
  | .negate => "NEG"
  | .logicalNot => "LOG_NOT"
  | .bitNot => "BIT_NOT"
  | .increment => "INC"
  | .decrement => "DEC"
  | .isTrue => "TRUE"
  | .isFalse => "FALSE"
  | .add => "ADD"
  | .subtract => "SUB"
  | .multiply => "MUL"
  | .divide => "DIV"
  | .modulo => "MOD"
  | .bitAnd => "BIT_AND"
  | .bitOr => "BIT_OR"
  | .bitXor => "BIT_XOR"
  | .shiftLeft => "LSHIFT"
  | .shiftRight => "RSHIFT"
  | .equal => "EQ"
  | .notEqual => "NE"
  | .less => "LT"
  | .lessEqual => "LE"
  | .greater => "GT"
  | .greaterEqual => "GE"
  | .implicit => "IMPLICIT"
  | .explicit => "EXPLICIT"
  | .equals => "EQUALS"
  | .compare => "COMPARE"

/-- The method names that stand for operators. -/
def methodNames : List (String × Operator) :=
  [("op_UnaryPlus", .plus), ("op_UnaryNegation", .negate), ("op_LogicalNot", .logicalNot),
    ("op_OnesComplement", .bitNot), ("op_Increment", .increment), ("op_Decrement", .decrement),
    ("op_True", .isTrue), ("op_False", .isFalse), ("op_Addition", .add),
    ("op_Subtraction", .subtract), ("op_Multiply", .multiply), ("op_Division", .divide),
    ("op_Modulus", .modulo), ("op_BitwiseAnd", .bitAnd), ("op_BitwiseOr", .bitOr),
    ("op_ExclusiveOr", .bitXor), ("op_LeftShift", .shiftLeft), ("op_RightShift", .shiftRight),
    ("op_Equality", .equal), ("op_Inequality", .notEqual), ("op_LessThan", .less),
    ("op_LessThanOrEqual", .lessEqual), ("op_GreaterThan", .greater),
    ("op_GreaterThanOrEqual", .greaterEqual), ("op_Implicit", .implicit),
    ("op_Explicit", .explicit), ("op_Equals", .equals), ("op_Compare", .compare)]

/-- The operator that a method name stands for. -/
def ofMethodName (name : Option String) : Operator :=
  (name.bind fun name => methodNames.lookup name).getD .unknown

/-- What is displayed for an operator. -/
def symbol? : Operator → Option String
  | .plus => some "+"
  | .negate => some "-"
  | .logicalNot => some "!"
  | .bitNot => some "~"
  | .increment => some "++"
  | .decrement => some "--"
  | .isTrue => some "true"
  | .isFalse => some "false"
  | .add => some "+"
  | .subtract => some "-"
  | .multiply => some "*"
  | .divide => some "/"
  | .modulo => some "%"
  | .bitAnd => some "&"
  | .bitOr => some "|"
  | .bitXor => some "^"
  | .shiftLeft => some "<<"
  | .shiftRight => some ">>"
  | .equal => some "=="
  | .notEqual => some "!="
  | .less => some "<"
  | .lessEqual => some "<="
  | .greater => some ">"
  | .greaterEqual => some ">="
  | _ => none

/-- What is displayed behind the word `operator` for a method: the symbol, or the word of one of
the two hooks. -/
def displayOfMethod? (name : Option String) : Option String :=
  match ofMethodName name with
  | .equals => some "equals"
  | .compare => some "compare"
  | op => op.symbol?

end Operator

end DisplayNames
