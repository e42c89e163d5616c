import ShaderHeader.Text.Conditional
import ShaderHeader.Text.Naming

/-!
# Accessors

The accessor of a program returns the descriptor for the backend that is active. If there is one
dialect only, its backend is not asked for.
-/

namespace ShaderHeader

/-- A descriptor, the backend it is for, and the symbol on which it depends. -/
structure Choice where
  guard : Option String
  backend : String
  descriptor : String
  deriving DecidableEq

namespace Choice

/-- The choice that a program has for a dialect. -/
def ofDialect (qualifier program : String) (guarded : Bool) (d : Dialect) : Choice :=
  ⟨d.guard guarded, d.backend, Naming.descriptor qualifier program d⟩

/-- Returns the descriptor in any case. -/
def onlyLines (c : Choice) : List String :=
  conditional "    " c.guard [s!"    return &{c.descriptor};"]

/-- Returns the descriptor if its backend is active. -/
def testLines (c : Choice) : List String :=
  conditional "    " c.guard
    [s!"    if (sg_query_backend() == {c.backend}) \x7b",
      s!"        return &{c.descriptor};",
      "    \x7d"]

end Choice

/-- A function with the descriptors that it chooses from. -/
structure Accessor where
  name : String
  choices : List Choice
  deriving DecidableEq

namespace Accessor

/-- The accessor of a program, with a choice for each dialect. -/
def ofProgram (qualifier : String) (guarded : Bool) (ds : List Dialect) (program : String) :
    Accessor :=
  ⟨Naming.accessor qualifier program, ds.map (Choice.ofDialect qualifier program guarded)⟩

/-- What is returned if no descriptor is. -/
def fallback : List String :=
  ["    return 0; /* can't happen */"]

/-- The statements of the function. The fallback is left out where it cannot be reached. -/
def body : List Choice → List String
  | [c] => c.onlyLines ++ if c.guard.isSome then fallback else []
  | cs  => cs.flatMap Choice.testLines ++ fallback

/-- The definition of the function. -/
def lines (a : Accessor) : List String :=
  s!"static inline const sg_shader_desc* {a.name}(void) \x7b" :: body a.choices ++ ["\x7d"]

end Accessor

end ShaderHeader
