/-!
# Constants

A constant is a C macro that stands for a number.
-/

namespace ShaderHeader

/-- A macro with a number for its value. -/
structure Constant where
  name : String
  value : Nat
  deriving DecidableEq

/-- The definition of a constant. -/
def Constant.line (c : Constant) : String :=
  s!"#define {c.name} ({c.value})"

end ShaderHeader
