import ShaderHeader.Shader.Dialect

/-!
# Names of the generated declarations

Every name is put together from the shader file's qualifier, names chosen by its author, and fixed
parts that tell the kinds of declarations apart.
-/

namespace ShaderHeader

namespace Naming

variable (qualifier : String)

/-- The constant with the slot of a block or an image. -/
def slot (resource : String) : String :=
  "SLOT_" ++ qualifier ++ resource

/-- The constant with the location of an attribute of a vertex snippet. -/
def location (snippet input : String) : String :=
  "ATTR_" ++ qualifier ++ snippet ++ "_" ++ input

/-- The C struct of a uniform block. -/
def struct (block : String) : String :=
  qualifier ++ block ++ "_t"

/-- The array with the source text of a snippet. -/
def source (snippet : String) (d : Dialect) : String :=
  qualifier ++ snippet ++ "_source_" ++ d.name

/-- The array with the bytecode of a snippet. -/
def bytecode (snippet : String) (d : Dialect) : String :=
  qualifier ++ snippet ++ "_bytecode_" ++ d.name

/-- The descriptor of a program for one dialect. -/
def descriptor (program : String) (d : Dialect) : String :=
  qualifier ++ program ++ "_shader_desc_" ++ d.name

/-- The function that picks the descriptor of a program at run time. -/
def accessor (program : String) : String :=
  qualifier ++ program ++ "_shader_desc"

/-- The label of a program in debugging tools. -/
def label (program : String) : String :=
  qualifier ++ program ++ "_shader"

end Naming

end ShaderHeader
