import ShaderHeader.NameTable
import ShaderHeader.Shader.Interface

/-!
# Shader files

A shader file names snippets of shader text and links them into programs. Compiled code refers to
its snippet by the snippet's position in the file.
-/

namespace ShaderHeader

/-- A snippet is shared text or the code of one stage. Shared text is never compiled by itself. -/
inductive SnippetKind
  | shared
  | stage (stage : Stage)
  deriving DecidableEq

/-- A named piece of shader text; the line is that of its declaration. -/
structure Snippet where
  name : String
  kind : SnippetKind
  line : Nat
  deriving DecidableEq

/-- Whether the snippet is the code of a stage. -/
def Snippet.isStage (s : Snippet) : Bool :=
  s.kind != .shared

/-- A program links a vertex snippet and a fragment snippet by their names. -/
structure Program where
  name : String
  vertex : String
  fragment : String
  line : Nat
  deriving DecidableEq

/-- The name of the snippet for one stage. -/
def Program.snippet (p : Program) : Stage → String
  | .vertex   => p.vertex
  | .fragment => p.fragment

/-- A shader file: where it is, what it declares, and the host types to be used for uniforms. -/
structure ShaderFile where
  path : String
  moduleName : Option String := none
  snippets : List Snippet := []
  programs : NameTable Program := .empty
  types : NameTable String := .empty

namespace ShaderFile

/-- Declares a snippet after those that are there. -/
def addSnippet (f : ShaderFile) (s : Snippet) : ShaderFile :=
  { f with snippets := f.snippets ++ [s] }

/-- Declares a program, in place of an earlier one of the same name. -/
def addProgram (f : ShaderFile) (p : Program) : ShaderFile :=
  { f with programs := f.programs.insert p.name p }

/-- Uses a host type for the uniforms of one shading type. -/
def addType (f : ShaderFile) (shaderType hostType : String) : ShaderFile :=
  { f with types := f.types.insert shaderType hostType }

/-- What the names of all generated declarations start with: the module's name and an underscore,
or nothing without a module. -/
def qualifier (f : ShaderFile) : String :=
  match f.moduleName with
  | some name => name ++ "_"
  | none      => ""

/-- The position of the first snippet of a name. -/
def findSnippet? (f : ShaderFile) (name : String) : Option Nat :=
  f.snippets.findIdx? fun s => s.name = name

/-- The line of the snippet at a position, and 0 beyond the last snippet. -/
def snippetLine (f : ShaderFile) (position : Nat) : Nat :=
  match f.snippets[position]? with
  | some s => s.line
  | none   => 0

end ShaderFile

end ShaderHeader
