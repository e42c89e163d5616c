import ShaderHeader.Shader.Dialect
import ShaderHeader.Shader.Interface

/-!
# Compilations

What the cross compiler made of a shader file for one dialect: source text with its interface, and
bytecode for some of the snippets. A snippet is given by its position in the file; where it occurs
more than once, its first occurrence counts.
-/

namespace ShaderHeader

/-- Compiled source text of one snippet. -/
structure Source where
  snippet : Nat
  code : String
  interface : Interface
  deriving DecidableEq

/-- Bytecode of one snippet. -/
structure Blob where
  snippet : Nat
  data : List UInt8
  deriving DecidableEq

/-- Sources and bytecode for one dialect, in the order in which they were made. -/
structure Compilation where
  sources : List Source := []
  blobs : List Blob := []
  deriving DecidableEq

namespace Compilation

/-- The first source of a snippet. -/
def source? (c : Compilation) (snippet : Nat) : Option Source :=
  c.sources.find? fun s => s.snippet = snippet

/-- The first bytecode of a snippet. -/
def blob? (c : Compilation) (snippet : Nat) : Option Blob :=
  c.blobs.find? fun b => b.snippet = snippet

end Compilation

/-- The compilations of one shader file, at most one for each dialect. -/
def Compilations := Dialect → Option Compilation

namespace Compilations

def empty : Compilations :=
  fun _ => none

/-- Enters the compilation for a dialect in place of an earlier one. -/
def insert (cs : Compilations) (d : Dialect) (c : Compilation) : Compilations :=
  fun e => if e = d then some c else cs e

@[simp] theorem insert_self (cs : Compilations) (d : Dialect) (c : Compilation) :
    cs.insert d c d = some c := by
  simp [insert]

theorem insert_of_ne (cs : Compilations) {d e : Dialect} (h : e ≠ d) (c : Compilation) :
    cs.insert d c e = cs e := by
  simp [insert, h]

def ofList (es : List (Dialect × Compilation)) : Compilations :=
  es.foldl (fun cs e => cs.insert e.1 e.2) empty

/-- The dialects that have a compilation. -/
def dialects (cs : Compilations) : DialectSet :=
  .ofList (Dialect.all.filter fun d => (cs d).isSome)

@[simp] theorem contains_dialects (cs : Compilations) (d : Dialect) :
    cs.dialects.contains d = (cs d).isSome := by
  simp [dialects]

end Compilations

end ShaderHeader
