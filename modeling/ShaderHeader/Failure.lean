import ShaderHeader.HostStruct
import ShaderHeader.Shader.Dialect
import ShaderHeader.Shader.File

/-!
# Failures

A failure keeps a header from being written. It has a cause, a `Fault`, and a place in the shader
file. Line 0 stands for the file as a whole.
-/

namespace ShaderHeader

/-- Why the file system refuses a path: it leads to nothing, it goes on from what is no directory,
or it is the path of a directory. A path that ends in dots or at the root is always taken for one of
a directory, though a system may have a code of its own for this. -/
inductive Refusal
  | notFound
  | notADirectory
  | isADirectory
  deriving DecidableEq

/-- What kind of failure is reported. -/
inductive Category
  /-- Something that is referred to does not exist. -/
  | lookup
  /-- Interfaces do not fit the runtime's tables or do not fit each other. -/
  | consistency
  /-- The finished header cannot be put in its place. -/
  | commit (refusal : Refusal)
  deriving DecidableEq

/-- The refusal behind a failure to put a header in its place. -/
def Category.refusal? : Category → Option Refusal
  | lookup | consistency => none
  | commit refusal       => some refusal

/-- The cause of a failure. -/
inductive Fault
  | missingCompilation (d : Dialect)
  | missingSource (d : Dialect) (snippet : String)
  | unknownSnippet (stage : Stage) (snippet program : String)
  | danglingSnippet (snippet program : String)
  | missingStageSource (d : Dialect) (stage : Stage) (snippet program : String)
  | wrongStage (stage : Stage) (snippet program : String)
  | slotBeyondTable (kind : ResourceKind) (name : String) (slot : Nat)
  | slotReused (kind : ResourceKind) (name : String) (slot : Nat)
  | slotConflict (kind : ResourceKind) (name : String) (first second : Nat)
  | layout (block : String) (fault : LayoutFault)
  | refusedBytecode (d : Dialect)
  | unlinked (vertex fragment : String) (location : Nat) (output input : String)
  | differingInterface (stage : Stage) (program : String) (d e : Dialect)
  | differingResources (d e : Dialect)
  | notOpened (output : String) (refusal : Refusal)
  | notReplaced (output : String) (refusal : Refusal)
  deriving DecidableEq

namespace Fault

/-- What kind of failure a fault leads to. -/
def category : Fault → Category
  | missingCompilation _ | missingSource _ _ | unknownSnippet _ _ _ | danglingSnippet _ _
  | missingStageSource _ _ _ _ => .lookup
  | wrongStage _ _ _ | slotBeyondTable _ _ _ | slotReused _ _ _ | slotConflict _ _ _ _
  | layout _ _ | refusedBytecode _ | unlinked _ _ _ _ _ | differingInterface _ _ _ _
  | differingResources _ _ => .consistency
  | notOpened _ refusal | notReplaced _ refusal => .commit refusal

/-- The fault in words. -/
def message : Fault → String
  | missingCompilation d => s!"no generated sources for '{d.name}'"
  | missingSource d snippet => s!"no generated '{d.name}' source for snippet '{snippet}'"
  | unknownSnippet stage snippet program =>
    s!"unknown {stage.name} shader '{snippet}' in program '{program}'"
  | danglingSnippet snippet program =>
    s!"snippet '{snippet}' of program '{program}' is out of range"
  | missingStageSource d stage snippet program =>
    s!"no generated '{d.name}' source for {stage.name} shader '{snippet}' in program '{program}'"
  | wrongStage stage snippet program =>
    s!"'{snippet}' in program '{program}' is not a {stage.name} shader"
  | slotBeyondTable kind name slot =>
    s!"{kind.noun} '{name}' uses bind slot {slot}, " ++
      s!"at most {kind.capacity} {kind.noun}s per stage are supported"
  | slotReused kind name slot => s!"{kind.noun} '{name}' reuses bind slot {slot}"
  | slotConflict kind name first second =>
    s!"conflicting bind slots for {kind.noun} '{name}' ({first} and {second})"
  | layout block fault => s!"uniform block '{block}': {fault.message}"
  | refusedBytecode d => s!"'{d.name}' does not support bytecode, but bytecode was provided"
  | unlinked vertex fragment location output input =>
    s!"outputs of vs '{vertex}' don't match inputs of fs '{fragment}' " ++
      s!"at location {location} (vs out: '{output}', fs in: '{input}')"
  | differingInterface stage program d e =>
    s!"reflected {stage.name} shader interface of program '{program}' " ++
      s!"differs between '{d.name}' and '{e.name}'"
  | differingResources d e =>
    s!"uniform blocks or images shared by all shaders differ between '{d.name}' and '{e.name}'"
  | notOpened output _ => s!"failed to open output file '{output}'"
  | notReplaced output _ => s!"failed to replace output file '{output}'"

end Fault

/-- A fault at a line of a shader file. -/
structure Failure where
  path : String
  line : Nat
  fault : Fault
  deriving DecidableEq

/-- A failure at a line of a shader file. -/
def ShaderFile.failure (f : ShaderFile) (line : Nat) (fault : Fault) : Failure :=
  ⟨f.path, line, fault⟩

/-! ### Reports -/

/-- A failure as it is shown to the user. -/
structure Report where
  category : Category
  path : String
  line : Nat
  detail : String
  deriving DecidableEq

/-- The report's line, in the form from which editors jump to the place. -/
def Report.text (r : Report) : String :=
  s!"{r.path}:{r.line}:0: error: {r.detail}"

/-- What is shown of a failure. -/
def Failure.report (f : Failure) : Report :=
  ⟨f.fault.category, f.path, f.line, f.fault.message⟩

end ShaderHeader
