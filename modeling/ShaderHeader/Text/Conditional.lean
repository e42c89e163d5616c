import ShaderHeader.Shader.Dialect

/-!
# Conditional parts

The compiler of a header sees a conditional part only if a symbol is defined.
-/

namespace ShaderHeader

/-- Some lines on the condition that a symbol is defined. Without a symbol there is no condition. -/
def conditional (indent : String) (symbol : Option String) (body : List String) : List String :=
  match symbol with
  | none        => body
  | some symbol =>
    s!"{indent}#if defined({symbol})" :: body ++ [s!"{indent}#endif /* {symbol} */"]

@[simp] theorem conditional_none (indent : String) (body : List String) :
    conditional indent none body = body := rfl

/-- The symbol on which a part for one dialect depends, if such parts are to be guarded. -/
def Dialect.guard (guarded : Bool) (d : Dialect) : Option String :=
  if guarded then some d.symbol else none

end ShaderHeader
