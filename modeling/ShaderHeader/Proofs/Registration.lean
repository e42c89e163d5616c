import ShaderHeader.Proofs.Header
import ShaderHeader.Proofs.NameTable

/-!
# Registration

A shader file is put together by registering snippets, programs and host types. Compilations are
entered dialect by dialect, and the dialects of a header are collected into a set. Of all this, only
the order of the snippets is of consequence for the header.
-/

namespace ShaderHeader

open Check

/-! ### Shader files -/

/-- What a shader file is put together from. -/
inductive Registration
  | snippet (s : Snippet)
  | program (p : Program)
  | type (shaderType hostType : String)
  deriving DecidableEq

namespace Registration

/-- The snippet that is registered. -/
def snippet? : Registration → Option Snippet
  | snippet s            => some s
  | program _ | type _ _ => none

/-- The program that is registered, with its name. -/
def program? : Registration → Option (String × Program)
  | program p            => some (p.name, p)
  | snippet _ | type _ _ => none

/-- The host type that is registered, with the shading type that it is for. -/
def type? : Registration → Option (String × String)
  | type shaderType hostType => some (shaderType, hostType)
  | snippet _ | program _    => none

end Registration

namespace ShaderFile

/-- Registers something. -/
def register (f : ShaderFile) : Registration → ShaderFile
  | .snippet s                => f.addSnippet s
  | .program p                => f.addProgram p
  | .type shaderType hostType => f.addType shaderType hostType

variable {f : ShaderFile} {rs rs' : List Registration}

/-- Snippets, programs and types are registered independently of each other. -/
lemma foldl_register (f : ShaderFile) (rs : List Registration) :
    rs.foldl register f = { f with
      snippets := f.snippets ++ rs.filterMap Registration.snippet?
      programs := (rs.filterMap Registration.program?).foldl (fun t e => t.insert e.1 e.2)
        f.programs
      types := (rs.filterMap Registration.type?).foldl (fun t e => t.insert e.1 e.2) f.types } := by
  induction rs generalizing f with
  | nil => simp
  | cons r rs ih =>
    rw [List.foldl_cons, ih]
    -- each registration changes one table and leaves the others to the rest
    cases r with
    | snippet s =>
      simp [register, addSnippet, List.filterMap_cons, Registration.snippet?,
        Registration.program?, Registration.type?]
    | program p =>
      simp [register, addProgram, List.filterMap_cons, Registration.snippet?,
        Registration.program?, Registration.type?]
    | type shaderType hostType =>
      simp [register, addType, List.filterMap_cons, Registration.snippet?,
        Registration.program?, Registration.type?]

/-- Only the order of the snippets tells how a file has been put together. -/
lemma foldl_register_of_perm (h : rs.Perm rs')
    (hsnippets : rs.filterMap Registration.snippet? = rs'.filterMap Registration.snippet?)
    (hprograms : ((rs.filterMap Registration.program?).map Prod.fst).Nodup)
    (htypes : ((rs.filterMap Registration.type?).map Prod.fst).Nodup) (f : ShaderFile) :
    rs.foldl register f = rs'.foldl register f := by
  rw [foldl_register, foldl_register, hsnippets,
    NameTable.foldl_insert_of_perm (h.filterMap _) hprograms,
    NameTable.foldl_insert_of_perm (h.filterMap _) htypes]

end ShaderFile

/-! ### Compilations -/

namespace Compilations

lemma insert_comm (cs : Compilations) {d e : Dialect} (h : d ≠ e) (b c : Compilation) :
    (cs.insert d b).insert e c = (cs.insert e c).insert d b := by
  funext x
  simp only [insert]
  split_ifs with hx hx'
  · exact absurd (hx'.symm.trans hx) h
  all_goals rfl

/-- Compilations for different dialects are entered in any order. -/
lemma ofList_of_perm {es es' : List (Dialect × Compilation)} (h : es.Perm es')
    (hnodup : (es.map Prod.fst).Nodup) : ofList es = ofList es' :=
  Keys.foldl_eq_of_perm h hnodup (fun cs _ _ hdialect => cs.insert_comm hdialect _ _) empty

end Compilations

/-! ### Dialects -/

namespace DialectSet

/-- A set with further flags. -/
def withFlags (s : DialectSet) (flags : Nat) : DialectSet :=
  ⟨s.bits ||| flags⟩

/-- Sets with the same dialects are read alike. -/
lemma toList_eq_of_contains {s t : DialectSet} (h : ∀ d, s.contains d = t.contains d) :
    s.toList = t.toList :=
  List.filter_congr fun d _ => h d

/-- Flags that name no dialect select nothing. -/
lemma contains_withFlags (s : DialectSet) {flags : Nat}
    (h : ∀ d : Dialect, flags.testBit d.index = false) (d : Dialect) :
    (s.withFlags flags).contains d = s.contains d := by
  simp [contains, withFlags, h d]

end DialectSet

namespace Header

/-- The dialects of a set are all that is used of it. -/
lemma make?_eq_of_contains {s t : DialectSet} (h : ∀ d, s.contains d = t.contains d)
    (f : ShaderFile) (cs : Compilations) (o : Options) :
    make? f cs { o with dialects := s } = make? f cs { o with dialects := t } := by
  simp only [make?, accessorsFor, Opening.ofEdition?, DialectSet.toList_eq_of_contains h]

/-- What comes out, a header with its warnings or a failure, does not depend on the order in which
programs, types, compilations and dialects are given, nor on flags that name no dialect. -/
theorem make?_eq_of_perm {rs rs' : List Registration} {es es' : List (Dialect × Compilation)}
    {ds ds' : List Dialect} {flags flags' : Nat} (hrs : rs.Perm rs')
    (hsnippets : rs.filterMap Registration.snippet? = rs'.filterMap Registration.snippet?)
    (hprograms : ((rs.filterMap Registration.program?).map Prod.fst).Nodup)
    (htypes : ((rs.filterMap Registration.type?).map Prod.fst).Nodup)
    (hes : es.Perm es') (hcompilations : (es.map Prod.fst).Nodup)
    (hds : ∀ d, d ∈ ds ↔ d ∈ ds') (hflags : ∀ d : Dialect, flags.testBit d.index = false)
    (hflags' : ∀ d : Dialect, flags'.testBit d.index = false) (f : ShaderFile) (o : Options) :
    make? (rs.foldl ShaderFile.register f) (.ofList es)
        { o with dialects := (DialectSet.ofList ds).withFlags flags } =
      make? (rs'.foldl ShaderFile.register f) (.ofList es')
        { o with dialects := (DialectSet.ofList ds').withFlags flags' } ∧
    ∀ (cs : Compilations) (s : DialectSet),
      make? f cs { o with dialects := s.withFlags flags } =
        make? f cs { o with dialects := s } := by
  constructor
  · rw [ShaderFile.foldl_register_of_perm hrs hsnippets hprograms htypes,
      Compilations.ofList_of_perm hes hcompilations]
    apply make?_eq_of_contains
    intro d
    rw [DialectSet.contains_withFlags _ hflags, DialectSet.contains_withFlags _ hflags',
      DialectSet.contains_ofList, DialectSet.contains_ofList, decide_eq_decide]
    exact hds d
  · intro cs s
    exact make?_eq_of_contains (DialectSet.contains_withFlags s hflags) f cs o

end Header

/-! ### The small file in another order -/

namespace Sample

/-- Registrations with two programs and two types. -/
def registrations : List Registration :=
  [.snippet ⟨"vs", .stage .vertex, 1⟩, .snippet ⟨"fs", .stage .fragment, 12⟩,
    .program ⟨"quad", "vs", "fs", 30⟩, .program ⟨"copy", "vs", "fs", 31⟩,
    .type "vec4" "vec4_t", .type "mat4" "mat4_t"]

/-- The same registrations in another order, the programs before their snippets. -/
def shuffledRegistrations : List Registration :=
  [.type "mat4" "mat4_t", .program ⟨"copy", "vs", "fs", 31⟩, .program ⟨"quad", "vs", "fs", 30⟩,
    .snippet ⟨"vs", .stage .vertex, 1⟩, .type "vec4" "vec4_t",
    .snippet ⟨"fs", .stage .fragment, 12⟩]

def entries : List (Dialect × Compilation) :=
  [(.glsl330, compilation [diffuse] []), (.metalSim, compilation [diffuse] [])]

/-- The header is the same one, also for a set whose last flag names no dialect. -/
theorem make?_eq_of_shuffledRegistrations :
    ∃ h, Header.make? (registrations.foldl ShaderFile.register { path := "quad.glsl" })
        (.ofList entries) { output := "quad.h", dialects := .ofList [.glsl330, .metalSim] } =
          .ok h ∧
      Header.make? (shuffledRegistrations.foldl ShaderFile.register { path := "quad.glsl" })
        (.ofList entries.reverse)
        { output := "quad.h",
          dialects := (DialectSet.ofList [.metalSim, .glsl330, .metalSim]).withFlags 128 } =
          .ok h := by
  obtain ⟨h, hmake, -⟩ : ∃ h,
      Header.make? (registrations.foldl ShaderFile.register { path := "quad.glsl" })
        (.ofList entries) { output := "quad.h", dialects := .ofList [.glsl330, .metalSim] } =
          .ok h ∧ h.opening.isSome = true := exists_of_map_toOption (by decide +kernel)
  have hrs : registrations.Perm shuffledRegistrations := by decide
  have hds : ∀ d : Dialect, d ∈ [.glsl330, .metalSim] ↔ d ∈ [.metalSim, .glsl330, .metalSim] := by
    simp [or_comm]
  have hnone : ∀ d : Dialect, (0 : Nat).testBit d.index = false := by simp
  have hflags : ∀ d : Dialect, (128 : Nat).testBit d.index = false := by
    intro d
    cases d <;> decide
  obtain ⟨heq, -⟩ := Header.make?_eq_of_perm hrs (by decide) (by decide) (by decide)
    (List.reverse_perm entries).symm (by decide) hds hnone hflags { path := "quad.glsl" }
    { output := "quad.h", dialects := ⟨0⟩ }
  exact ⟨h, hmake, heq ▸ hmake⟩

end Sample

end ShaderHeader
