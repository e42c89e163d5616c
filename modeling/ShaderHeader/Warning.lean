import ShaderHeader.Shader.Interface
import ShaderHeader.Text.Naming

/-!
# Warnings

A warning reports a part of the header that is worse than the shader file asked for. It does not
keep the header from being written.
-/

namespace ShaderHeader

/-- What is worse than it was asked for, and why. -/
inductive Warning
  /-- The slot of a resource is declared under the name of another one, its holder. -/
  | shadowed (kind : ResourceKind) (name : String) (slot : Nat) (holder : String)
  /-- A uniform has a type that the host cannot express. -/
  | unsupported (block uniform : String)
  deriving DecidableEq

namespace Warning

/-- The declaration in which the problem is visible. -/
def declaration (qualifier : String) : Warning → String
  | shadowed _ _ _ holder => Naming.slot qualifier holder
  | unsupported block _   => Naming.struct qualifier block

def message : Warning → String
  | shadowed kind name slot holder =>
    s!"{kind.noun} '{name}' shares bind slot {slot} with '{holder}', only '{holder}' is declared"
  | unsupported block uniform =>
    s!"uniform '{uniform}' in block '{block}' has an unsupported type"

end Warning

end ShaderHeader
