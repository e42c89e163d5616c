import Mathlib.Data.List.Infix
import ShaderHeader.Proofs.Header
import ShaderHeader.Proofs.Reading.Token

/-!
# Constants of a header

Every constant that is declared has the name of a location or of a slot. By such names the lines
that define constants are found in the text of the declarations, and they are the definitions of
just these constants, in their order.
-/

namespace ShaderHeader

open Check

/-! ### Locations -/

/-- Every input with a slot has a constant. -/
lemma Interface.mem_locations {i : Interface} {a : Attribute} {slot : Nat}
    (ha : a ∈ i.inputs.toList) (hslot : a.slot = some slot) (qualifier snippet : String) :
    ⟨Naming.location qualifier snippet a.name, slot⟩ ∈ i.locations qualifier snippet := by
  have hused : a ∈ i.inputs.used :=
    List.mem_filter.mpr ⟨ha, by rw [Attribute.isUsed, hslot, Option.isSome_some]⟩
  exact List.mem_filterMap.mpr ⟨a, hused, by rw [hslot, Option.map_some]⟩

/-- The constants of a vertex stage are among those of its compilation. -/
lemma mem_locationConstants {f : ShaderFile} {c : Compilation} {s : Source} {snippet : Snippet}
    (hs : s ∈ c.sources) (hstage : s.interface.stage = .vertex)
    (hsnippet : f.snippets[s.snippet]? = some snippet) {k : Constant}
    (hk : k ∈ s.interface.locations f.qualifier snippet.name) : k ∈ locationConstants f c := by
  refine List.mem_flatMap.mpr ⟨⟨snippet.name, _⟩, List.mem_filterMap.mpr ⟨s, hs, ?_⟩, hk⟩
  rw [vertexInputs?, if_pos hstage, hsnippet]
  rfl

/-- A vertex source of the snippet at a position has an attribute of this name on this slot. -/
def Compilation.ReadsAttribute (c : Compilation) (position : Nat) (input : String) (slot : Nat) :
    Prop :=
  ∃ s ∈ c.sources, s.snippet = position ∧ s.interface.stage = .vertex ∧
    ∃ a ∈ s.interface.inputs.toList, a.name = input ∧ a.slot = some slot

/-- A constant for a location comes from an attribute. -/
lemma mem_locationConstants_iff {f : ShaderFile} {c : Compilation} {k : Constant} :
    k ∈ locationConstants f c ↔
      ∃ position s input slot, f.snippets[position]? = some s ∧
        c.ReadsAttribute position input slot ∧
        k = ⟨Naming.location f.qualifier s.name input, slot⟩ := by
  constructor
  · intro hk
    obtain ⟨v, hv, hk⟩ := List.mem_flatMap.mp hk
    obtain ⟨source, hsource, hinputs⟩ := List.mem_filterMap.mp hv
    rw [vertexInputs?] at hinputs
    split at hinputs
    · -- only vertex stages have their inputs listed
      next hstage =>
      obtain ⟨s, hs, rfl⟩ := Option.map_eq_some_iff.mp hinputs
      obtain ⟨a, ha, hslot⟩ := List.mem_filterMap.mp hk
      obtain ⟨slot, hsome, rfl⟩ := Option.map_eq_some_iff.mp hslot
      exact ⟨_, s, a.name, slot, hs,
        ⟨source, hsource, rfl, hstage, a, (List.mem_filter.mp ha).1, rfl, hsome⟩, rfl⟩
    · cases hinputs
  · rintro ⟨_, s, _, slot, hs, ⟨source, hsource, rfl, hstage, a, ha, rfl, hslot⟩, rfl⟩
    exact mem_locationConstants hsource hstage hs (Interface.mem_locations ha hslot _ _)

/-- What an opening declares, it declares for the first edition. -/
lemma Header.exists_firstEdition {f : ShaderFile} {cs : Compilations} {o : Options} {h : Header}
    (hmake : make? f cs o = .ok h) {s : Opening} (hs : s ∈ h.opening) :
    ∃ first, IsFirstEdition f cs o first ∧
      Declarations.ofEdition? f first = .ok s.declarations := by
  obtain ⟨es, hmade⟩ := exists_madeFrom hmake
  obtain ⟨first, -, hfirst, hopening, -⟩ := hmade.exists_ofEdition hs
  exact ⟨first, hfirst, (Opening.ofEdition?_eq_ok_iff.mp hopening).2.1⟩

/-! ### Names -/

/-- The names that constants are given. -/
def Naming.IsConstant (qualifier name : String) : Prop :=
  (∃ snippet input, name = location qualifier snippet input) ∨
    ∃ resource, name = slot qualifier resource

/-- The name of a constant is that of a program's accessor or descriptor only if the program's name,
behind the qualifier, starts like that of a constant. -/
lemma Naming.IsConstant.exists_prefix {qualifier program rest : String}
    (h : IsConstant qualifier (qualifier ++ program ++ "_shader_desc" ++ rest)) :
    ∃ mark ∈ ["ATTR_", "SLOT_"], mark.toList <+: (qualifier ++ program ++ "_").toList := by
  obtain ⟨mark, hmark, hprefix⟩ : ∃ mark ∈ ["ATTR_", "SLOT_"],
      mark.toList <+: (qualifier ++ program ++ "_shader_desc" ++ rest).toList := by
    rcases h with ⟨snippet, input, hname⟩ | ⟨resource, hname⟩
    · exact ⟨"ATTR_", by simp, by simp [hname, location]⟩
    · exact ⟨"SLOT_", by simp, by simp [hname, slot]⟩
  refine ⟨mark, hmark, ?_⟩
  have hfront : (qualifier ++ program ++ "_").toList <+:
      (qualifier ++ program ++ "_shader_desc" ++ rest).toList :=
    ⟨("shader_desc" ++ rest).toList, by simp⟩
  rcases List.prefix_or_prefix_of_prefix hprefix hfront with h | h
  · exact h
  · -- the underscore of a mark is its last character, so a part with one is all of it
    have hinits : ∀ mark ∈ ["ATTR_", "SLOT_"], ∀ cs ∈ mark.toList.inits,
        cs.getLast? = some '_' → mark.toList <+: cs := by decide
    exact hinits mark hmark _ ((List.mem_inits _ _).mpr h) (by simp)

example : Naming.slot "" "tex_shader_desc" = Naming.accessor "" "SLOT_tex" := by decide

namespace Declarations

variable {f : ShaderFile} {e : Edition} {ds : Declarations}

lemma isConstant_of_mem (h : ofEdition? f e = .ok ds) {k : Constant} (hk : k ∈ ds.constants) :
    Naming.IsConstant f.qualifier k.name := by
  obtain ⟨hqualifier, hlocations, himages, -⟩ := ofEdition?_eq_ok_iff.mp h
  simp only [constants, List.mem_append] at hk
  rcases hk with (hk | hk) | hk
  · obtain ⟨_, v, input, _, -, -, rfl⟩ := mem_locationConstants_iff.mp (hlocations ▸ hk)
    exact .inl ⟨v.name, input, rfl⟩
  · obtain ⟨m, -, rfl⟩ := List.mem_map.mp (himages ▸ hk)
    exact .inr ⟨m.name, rfl⟩
  · obtain ⟨s, -, rfl⟩ := List.mem_map.mp hk
    exact .inr ⟨s.block, hqualifier ▸ rfl⟩

end Declarations

/-- Otherwise no constant of a header is in the way of an accessor or a descriptor. -/
lemma Header.constant_ne_accessor {f : ShaderFile} {cs : Compilations} {o : Options} {h : Header}
    (hmake : make? f cs o = .ok h) {s : Opening} (hs : s ∈ h.opening) {k : Constant}
    (hk : k ∈ s.declarations.constants) {program : String}
    (hprogram : ∀ mark ∈ ["ATTR_", "SLOT_"],
      ¬ mark.toList <+: (f.qualifier ++ program ++ "_").toList) :
    k.name ≠ Naming.accessor f.qualifier program ∧
      ∀ d, k.name ≠ Naming.descriptor f.qualifier program d := by
  obtain ⟨first, -, hdeclarations⟩ := exists_firstEdition hmake hs
  have hconstant := Declarations.isConstant_of_mem hdeclarations hk
  have hne : ∀ rest, k.name ≠ f.qualifier ++ program ++ "_shader_desc" ++ rest := by
    intro rest heq
    obtain ⟨mark, hmark, hprefix⟩ := Naming.IsConstant.exists_prefix (heq ▸ hconstant)
    exact hprogram mark hmark hprefix
  constructor
  · simpa [Naming.accessor] using hne ""
  · intro d
    have hname : Naming.descriptor f.qualifier program d =
        f.qualifier ++ program ++ "_shader_desc" ++ ("_" ++ d.name) := by
      simp [Naming.descriptor, ← String.toList_inj]
    exact hname ▸ hne _

/-! ### Definitions in the text -/

/-- Whether a line defines a constant for a location or for a slot. -/
def definesConstant (line : String) : Bool :=
  line.toList.take 13 ∈ ["#define ATTR_".toList, "#define SLOT_".toList]

lemma definesConstant_line {k : Constant} {qualifier : String}
    (h : Naming.IsConstant qualifier k.name) : definesConstant k.line = true := by
  rcases h with ⟨snippet, input, hname⟩ | ⟨resource, hname⟩
  · simp [definesConstant, Constant.line, hname, Naming.location]
  · simp [definesConstant, Constant.line, hname, Naming.slot]

lemma definesConstant_memberLine (m : Member) : definesConstant m.line = false := by
  fun_cases Member.line m <;> simp [definesConstant]

/-- Of a struct's lines, the first one defines its constant and no other one does. -/
lemma HostStruct.filter_lines (qualifier : String) (s : HostStruct) :
    (s.lines qualifier).filter definesConstant = [(s.constant qualifier).line] := by
  have hconstant : definesConstant (s.constant qualifier).line = true :=
    definesConstant_line (.inr ⟨s.block, rfl⟩)
  have hmembers : (s.members.map Member.line).filter definesConstant = [] := by
    simp [List.filter_eq_nil_iff, definesConstant_memberLine]
  rw [lines, List.filter_append, List.filter_append, hmembers, List.filter_cons_of_pos hconstant]
  simp [definesConstant]

namespace Declarations

variable {f : ShaderFile} {e : Edition} {ds : Declarations}

/-- The lines of the declarations that define a constant are the definitions of their constants. -/
lemma filter_lines (h : ofEdition? f e = .ok ds) :
    ds.lines.filter definesConstant = ds.constants.map Constant.line := by
  have halignment : alignmentLines.filter definesConstant = [] := by decide
  have hmap : ∀ {ks : List Constant}, ks ⊆ ds.constants →
      (ks.map Constant.line).filter definesConstant = ks.map Constant.line := by
    intro ks hks
    refine List.filter_eq_self.mpr (List.forall_mem_map.mpr fun k hk => ?_)
    exact definesConstant_line (isConstant_of_mem h (hks hk))
  have hlocations : ds.locations ⊆ ds.constants := fun k hk => by simp [constants, hk]
  have himages : ds.images ⊆ ds.constants := fun k hk => by simp [constants, hk]
  simp only [lines, constants, blocks, List.filter_append, halignment, hmap hlocations,
    hmap himages, List.filter_flatMap, HostStruct.filter_lines, List.nil_append, List.map_append,
    List.map_map, ← List.map_eq_flatMap, Function.comp_def]

end Declarations

lemma Header.declarations_infix_lines {h : Header} {s : Opening} (hs : s ∈ h.opening) :
    s.declarations.lines <:+: h.lines := by
  have hopening : h.opening = some s := hs
  have hlines : s.lines <:+: h.lines := by
    rw [lines, hopening, Option.toList_some, List.flatMap_singleton]
    simp only [List.append_assoc]
    exact ⟨_, _, List.append_assoc ..⟩
  have hdeclarations : s.declarations.lines <:+: s.lines := ⟨s.guide.lines, _, rfl⟩
  exact hdeclarations.trans hlines

end ShaderHeader
