/-!
# Shading dialects

A dialect is a target language of the cross compiler together with the backend that runs it. The
canonical order of the dialects is the order in which a header treats them and in which its
accessors test for them.

A `DialectSet` is a word of flags, one per dialect. Flags that name no dialect are kept and select
nothing.
-/

namespace ShaderHeader

/-- The languages that shaders are compiled to. -/
inductive Dialect
  | glsl330
  | glsl100
  | glsl300es
  | hlsl5
  | metalMacos
  | metalIos
  | metalSim
  deriving DecidableEq

namespace Dialect

/-- Every dialect, in canonical order. -/
def all : List Dialect :=
  [glsl330, glsl100, glsl300es, hlsl5, metalMacos, metalIos, metalSim]

/-- The place of a dialect in the canonical order. -/
def index : Dialect → Nat
  | glsl330    => 0
  | glsl100    => 1
  | glsl300es  => 2
  | hlsl5      => 3
  | metalMacos => 4
  | metalIos   => 5
  | metalSim   => 6

/-- The dialect at a place of the canonical order. -/
def ofIndex? (n : Nat) : Option Dialect :=
  all[n]?

@[simp] theorem ofIndex?_index (d : Dialect) : ofIndex? d.index = some d := by
  cases d <;> rfl

@[simp] theorem mem_all (d : Dialect) : d ∈ all := by
  cases d <;> decide

/-- The last part of every identifier that belongs to one dialect. -/
def name : Dialect → String
  | glsl330    => "glsl330"
  | glsl100    => "glsl100"
  | glsl300es  => "glsl300es"
  | hlsl5      => "hlsl5"
  | metalMacos => "metal_macos"
  | metalIos   => "metal_ios"
  | metalSim   => "metal_sim"

/-- The symbol that is defined when the runtime is compiled for the dialect. The three dialects of
one family share theirs. -/
def symbol : Dialect → String
  | glsl330                         => "SOKOL_GLCORE33"
  | glsl100                         => "SOKOL_GLES2"
  | glsl300es                       => "SOKOL_GLES3"
  | hlsl5                           => "SOKOL_D3D11"
  | metalMacos | metalIos | metalSim => "SOKOL_METAL"

/-- What the runtime answers when it is asked for its backend and the dialect is active. -/
def backend : Dialect → String
  | glsl330    => "SG_BACKEND_GLCORE33"
  | glsl100    => "SG_BACKEND_GLES2"
  | glsl300es  => "SG_BACKEND_GLES3"
  | hlsl5      => "SG_BACKEND_D3D11"
  | metalMacos => "SG_BACKEND_METAL_MACOS"
  | metalIos   => "SG_BACKEND_METAL_IOS"
  | metalSim   => "SG_BACKEND_METAL_SIMULATOR"

/-- Whether the runtime takes bytecode in place of source text. -/
def takesBytecode : Dialect → Bool
  | glsl330 | glsl100 | glsl300es             => false
  | hlsl5 | metalMacos | metalIos | metalSim => true

end Dialect

/-! ### Sets of dialects -/

/-- A word with one flag per dialect, at the dialect's index. -/
structure DialectSet where
  bits : Nat
  deriving DecidableEq

namespace DialectSet

def singleton (d : Dialect) : DialectSet :=
  ⟨1 <<< d.index⟩

def union (s t : DialectSet) : DialectSet :=
  ⟨s.bits ||| t.bits⟩

/-- Whether the flag of a dialect is set. -/
def contains (s : DialectSet) (d : Dialect) : Bool :=
  s.bits.testBit d.index

/-- The dialects of a set, in canonical order. -/
def toList (s : DialectSet) : List Dialect :=
  Dialect.all.filter s.contains

/-- The set of some dialects, in any order. -/
def ofList (ds : List Dialect) : DialectSet :=
  ds.foldl (fun s d => s.union (singleton d)) ⟨0⟩

@[simp] theorem contains_singleton (d e : Dialect) : (singleton d).contains e = decide (d = e) := by
  cases d <;> cases e <;> rfl

@[simp] theorem contains_union (s t : DialectSet) (d : Dialect) :
    (s.union t).contains d = (s.contains d || t.contains d) := by
  simp [contains, union]

@[simp] theorem mem_toList {s : DialectSet} {d : Dialect} :
    d ∈ s.toList ↔ s.contains d = true := by
  simp [toList]

theorem contains_foldl_union (ds : List Dialect) (s : DialectSet) (d : Dialect) :
    (ds.foldl (fun s d => s.union (singleton d)) s).contains d =
      (s.contains d || decide (d ∈ ds)) := by
  induction ds generalizing s with
  | nil => simp
  | cons e ds ih =>
    rw [List.foldl_cons, ih, contains_union, contains_singleton, Bool.or_assoc]
    congr 1
    by_cases h : e = d
    · simp [h]
    · simp [h, Ne.symm h]

/-- Order and repetitions are lost in a set. -/
@[simp] theorem contains_ofList (ds : List Dialect) (d : Dialect) :
    (ofList ds).contains d = decide (d ∈ ds) := by
  rw [ofList, contains_foldl_union]
  simp [contains]

end DialectSet

end ShaderHeader
