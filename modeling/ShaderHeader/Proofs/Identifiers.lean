import ShaderHeader.Proofs.Embedding
import ShaderHeader.Proofs.IdentifierText
import ShaderHeader.Proofs.NameTable
import ShaderHeader.Proofs.Rejection
import ShaderHeader.Proofs.SlotMerge

/-!
# Identifiers

The names of what a header defines start alike, and each one ends in a part that says what it is and
for which dialect. None of these parts is the end of another one. So two names are the same only if
they are made for the same thing from the same name, whatever that name looks like.
-/

namespace ShaderHeader

open Check Reading

/-! ### Names -/

/-- What an identifier can be made for. -/
inductive IdentifierKind
  | struct
  | source (d : Dialect)
  | bytecode (d : Dialect)
  | descriptor (d : Dialect)
  | accessor
  deriving DecidableEq

namespace IdentifierKind

/-- The part of an identifier that comes after a name of the author's. -/
def ending : IdentifierKind → String
  | struct       => "_t"
  | source d     => "_source_" ++ d.name
  | bytecode d   => "_bytecode_" ++ d.name
  | descriptor d => "_shader_desc_" ++ d.name
  | accessor     => "_shader_desc"

/-- Every kind of identifier. -/
def all : List IdentifierKind :=
  [struct, accessor] ++ Dialect.all.flatMap fun d => [source d, bytecode d, descriptor d]

lemma mem_all (k : IdentifierKind) : k ∈ all := by
  cases k <;> simp [all]

/-- No ending is the end of another one. -/
lemma eq_of_ending_suffix {k l : IdentifierKind} (h : k.ending.toList <:+ l.ending.toList) :
    k = l := by
  have hall : ∀ k ∈ all, ∀ l ∈ all, k.ending.toList <:+ l.ending.toList → k = l := by
    decide +kernel
  exact hall k k.mem_all l l.mem_all h

end IdentifierKind

/-- An identifier by what it is made for and by the name that the author chose. -/
structure Identifier where
  kind : IdentifierKind
  base : String
  deriving DecidableEq

namespace Identifier

/-- The identifier in C. -/
def text (qualifier : String) (i : Identifier) : String :=
  qualifier ++ i.base ++ i.kind.ending

/-- An identifier says what it is made for. -/
lemma text_injective (qualifier : String) : Function.Injective (text qualifier) := by
  rintro ⟨k, v⟩ ⟨l, w⟩ h
  have hlists : (qualifier ++ v).toList ++ k.ending.toList =
      (qualifier ++ w).toList ++ l.ending.toList := by
    simpa only [text, String.toList_append] using congrArg String.toList h
  obtain rfl : k = l := by
    rcases List.suffix_or_suffix_of_suffix ⟨_, hlists⟩ ⟨_, rfl⟩ with hend | hend
    · exact IdentifierKind.eq_of_ending_suffix hend
    · exact (IdentifierKind.eq_of_ending_suffix hend).symm
  simpa only [text, String.append_left_inj, String.append_right_inj, mk.injEq, true_and] using h

end Identifier

/-! ### Distinct names -/

/-- Names without repetition that are identifiers of certain kinds. -/
structure Distinct (qualifier : String) (kinds : IdentifierKind → Prop) (names : List String) :
    Prop where
  nodup : names.Nodup
  exists_kind : ∀ n ∈ names, ∃ i : Identifier, kinds i.kind ∧ i.text qualifier = n

namespace Distinct

variable {qualifier : String} {K L : IdentifierKind → Prop} {ns ms : List String}

lemma mono (h : Distinct qualifier K ns) (hK : ∀ k, K k → L k) : Distinct qualifier L ns := by
  refine ⟨h.nodup, fun n hn => ?_⟩
  obtain ⟨i, hi, htext⟩ := h.exists_kind n hn
  exact ⟨i, hK _ hi, htext⟩

/-- Identifiers of different kinds are different. -/
lemma disjoint (h : Distinct qualifier K ns) (h' : Distinct qualifier L ms)
    (hKL : ∀ k, K k → ¬ L k) : ns.Disjoint ms := by
  intro n hn hm
  obtain ⟨i, hi, rfl⟩ := h.exists_kind n hn
  obtain ⟨j, hj, htext⟩ := h'.exists_kind _ hm
  obtain rfl := Identifier.text_injective qualifier htext
  exact hKL _ hi hj

lemma append (h : Distinct qualifier K ns) (h' : Distinct qualifier L ms)
    (hKL : ∀ k, K k → ¬ L k) : Distinct qualifier (fun k => K k ∨ L k) (ns ++ ms) := by
  refine ⟨h.nodup.append h'.nodup (h.disjoint h' hKL), fun n hn => ?_⟩
  rcases List.mem_append.mp hn with hn | hn
  · exact (h.mono fun _ => Or.inl).exists_kind n hn
  · exact (h'.mono fun _ => Or.inr).exists_kind n hn

/-- Names of one kind are as distinct as what they are made from. -/
lemma of_map {α : Type} {as : List α} {base : α → String} (kind : IdentifierKind)
    (h : (as.map base).Nodup) :
    Distinct qualifier (· = kind) (as.map fun a => Identifier.text qualifier ⟨kind, base a⟩) := by
  refine ⟨?_, fun n hn => ?_⟩
  · refine List.pairwise_map.mpr ((List.pairwise_map.mp h).imp fun hne heq => hne ?_)
    exact congrArg Identifier.base (Identifier.text_injective qualifier heq)
  · obtain ⟨a, -, rfl⟩ := List.mem_map.mp hn
    exact ⟨_, rfl, rfl⟩

end Distinct

/-! ### Parts of a header -/

variable {f : ShaderFile} {cs : Compilations} {o : Options} {e : Edition}

namespace Declarations

variable {ds : Declarations}

lemma map_block_structs (h : ofEdition? f e = .ok ds) :
    ds.structs.map HostStruct.block = e.bindings.blocks.holders.map Block.name := by
  obtain ⟨-, -, -, hstructs⟩ := ofEdition?_eq_ok_iff.mp h
  exact (map_eq_of_forall₂ hstructs fun b s hs =>
    (HostStruct.block_slot_of_ofBlock? hs).1.symm).symm

/-- Blocks that hold a slot have different names, and so have their structs. -/
lemma distinct_identifiers {d : Dialect} (hcheck : Edition.check? f d cs = .ok e)
    (h : ofEdition? f e = .ok ds) : Distinct f.qualifier (· = .struct) ds.identifiers := by
  obtain ⟨-, -, -, -, -, -, hbindings⟩ := Edition.check?_eq_ok_iff.mp hcheck
  obtain ⟨hqualifier, -⟩ := ofEdition?_eq_ok_iff.mp h
  have hnodup : (ds.structs.map HostStruct.block).Nodup :=
    map_block_structs h ▸ (Bindings.merges_blocks hbindings).nodup_names
  rw [identifiers, hqualifier]
  exact .of_map .struct hnodup

end Declarations

/-- The dialect that an identifier is for. -/
def IdentifierKind.dialect? : IdentifierKind → Option Dialect
  | source d | bytecode d | descriptor d => some d
  | struct | accessor                    => none

namespace Section

variable {guarded : Bool}

lemma distinct_arrays (hnames : ((f.snippets.filter Snippet.isStage).map Snippet.name).Nodup) :
    Distinct f.qualifier (fun k => k = .source e.dialect ∨ k = .bytecode e.dialect)
      ((ofEdition f e guarded).code.map fun c => c.table.name) := by
  refine ⟨nodup_names hnames, fun n hn => ?_⟩
  obtain ⟨c, hc, rfl⟩ := List.mem_map.mp hn
  obtain ⟨v, s, b, rfl⟩ := exists_of_mem_code hc
  cases b with
  | none   => exact ⟨⟨.source e.dialect, v⟩, .inl rfl, String.append_assoc.symm⟩
  | some _ => exact ⟨⟨.bytecode e.dialect, v⟩, .inr rfl, String.append_assoc.symm⟩

lemma distinct_descriptors {d : Dialect} (hcheck : Edition.check? f d cs = .ok e)
    (hprograms : (f.programs.values.map Program.name).Nodup) :
    Distinct f.qualifier (· = .descriptor e.dialect)
      ((ofEdition f e guarded).descriptors.map Descriptor.name) := by
  have hlinked : (e.programs.map fun p => p.program.name).Nodup := by
    rw [← Edition.map_program_of_check? hcheck, List.map_map] at hprograms
    exact hprograms
  have hnames : (ofEdition f e guarded).descriptors.map Descriptor.name =
      e.programs.map fun p =>
        Identifier.text f.qualifier ⟨.descriptor e.dialect, p.program.name⟩ := by
    rw [ofEdition, List.map_map]
    exact List.map_congr_left fun p _ => String.append_assoc
  rw [hnames]
  exact .of_map _ hlinked

/-- A section defines names for its dialect. -/
lemma distinct_identifiers {d : Dialect} (hcheck : Edition.check? f d cs = .ok e)
    (hnames : ((f.snippets.filter Snippet.isStage).map Snippet.name).Nodup)
    (hprograms : (f.programs.values.map Program.name).Nodup) :
    Distinct f.qualifier (fun k => k.dialect? = some e.dialect)
      (ofEdition f e guarded).identifiers := by
  refine (distinct_arrays hnames).append (distinct_descriptors hcheck hprograms) ?_ |>.mono ?_
  · rintro _ (rfl | rfl) <;> simp
  · rintro _ ((rfl | rfl) | rfl) <;> rfl

end Section

/-! ### Headers -/

namespace Header

variable {h : Header} {es : List Edition}

lemma MadeFrom.distinct_structs (hmade : MadeFrom f cs o h es) :
    Distinct f.qualifier (· = .struct)
      (h.opening.toList.flatMap fun s => s.declarations.identifiers) := by
  cases hopening : h.opening with
  | none => exact ⟨by simp, by simp⟩
  | some s =>
    obtain ⟨first, -, ⟨d, -, hcheck⟩, hfirst, -⟩ := hmade.exists_ofEdition hopening
    obtain ⟨-, hdeclarations, -⟩ := Opening.ofEdition?_eq_ok_iff.mp hfirst
    simpa using Declarations.distinct_identifiers hcheck hdeclarations

/-- Sections are for different dialects. -/
lemma MadeFrom.distinct_sections (hmade : MadeFrom f cs o h es)
    (hnames : ((f.snippets.filter Snippet.isStage).map Snippet.name).Nodup)
    (hprograms : (f.programs.values.map Program.name).Nodup) :
    Distinct f.qualifier (fun k => k.dialect?.isSome) (h.sections.flatMap Section.identifiers) := by
  have hsection : ∀ e ∈ es, Distinct f.qualifier (fun k => k.dialect? = some e.dialect)
      (Section.ofEdition f e o.guarded).identifiers := by
    intro e he
    obtain ⟨d, -, hcheck⟩ := hmade.exists_check? he
    exact Section.distinct_identifiers hcheck hnames hprograms
  -- a dialect occurs once, as editions go with dialects one by one
  have hdialects : es.Pairwise fun e e' => e.dialect ≠ e'.dialect := by
    have heq : o.dialects.toList.map id = es.map Edition.dialect :=
      map_eq_of_forall₂ hmade.checked fun d e hcheck => (Edition.check?_eq_ok_iff.mp hcheck).1.symm
    rw [List.map_id] at heq
    exact List.pairwise_map.mp (heq ▸ nodup_toList o.dialects)
  rw [hmade.sections, List.flatMap_map]
  refine ⟨List.nodup_flatMap.mpr ⟨fun e he => (hsection e he).nodup, ?_⟩, ?_⟩
  · refine hdialects.imp_of_mem fun {e e'} he he' hne => ?_
    refine (hsection e he).disjoint (hsection e' he') fun k hk hk' => hne ?_
    exact Option.some.inj (hk.symm.trans hk')
  · intro n hn
    obtain ⟨e, he, hn⟩ := List.mem_flatMap.mp hn
    obtain ⟨i, hi, htext⟩ := (hsection e he).exists_kind n hn
    exact ⟨i, by rw [hi]; rfl, htext⟩

lemma MadeFrom.distinct_accessors (hmade : MadeFrom f cs o h es)
    (hprograms : (f.programs.values.map Program.name).Nodup) :
    Distinct f.qualifier (· = .accessor) (h.accessors.map Accessor.name) := by
  rw [hmade.accessors, accessorsFor, List.map_map]
  exact .of_map .accessor hprograms

/-- No two definitions in the text of a header have the same name: neither structs, nor arrays, nor
descriptors, nor accessors, for whatever names have been chosen. -/
theorem identifiers_distinct (hmake : make? f cs o = .ok h)
    (hsnippets : ((f.snippets.filter Snippet.isStage).map Snippet.name).Nodup)
    (hprograms : ∀ x ∈ f.programs.entries, x.2.name = x.1) :
    h.lines.filterMap identifier? = h.identifiers ∧ h.identifiers.Nodup := by
  obtain ⟨es, hmade⟩ := exists_madeFrom hmake
  constructor
  · refine filterMap_identifier?_lines fun s hs c hc => ?_
    rw [hmade.sections] at hs
    obtain ⟨e, -, rfl⟩ := List.mem_map.mp hs
    obtain ⟨v, source, b, rfl⟩ := Section.exists_of_mem_code hc
    cases b with
    | none   => exact .inl rfl
    | some _ => exact .inr rfl
  · have hnodup := NameTable.nodup_map_values hprograms
    have hstructs := hmade.distinct_structs
    have hsections := hmade.distinct_sections hsnippets hnodup
    have haccessors := hmade.distinct_accessors hnodup
    refine ((hstructs.append hsections ?_).append haccessors ?_).nodup
    · -- structs go with no dialect, sections with one, and accessors end like neither
      rintro _ rfl
      simp [IdentifierKind.dialect?]
    · rintro k hk rfl
      rcases hk with hk | hk <;> cases hk

end Header

/-! ### Names that look like others -/

namespace Sample

/-- A file whose author has chosen names with endings. -/
def tangledFile : ShaderFile :=
  ({ path := "quad.glsl", moduleName := some "m" } : ShaderFile)
    |>.addSnippet ⟨"vs", .stage .vertex, 1⟩
    |>.addSnippet ⟨"vs_source_glsl330", .stage .fragment, 12⟩
    |>.addProgram ⟨"vs_shader_desc", "vs", "vs_source_glsl330", 30⟩
    |>.addProgram ⟨"vs", "vs", "vs_source_glsl330", 31⟩

/-- A compilation of the file with a block whose name has an ending as well. -/
def tangledCompilation : Compilation :=
  ⟨[⟨0, "", { stage := .vertex, entry := "main" }⟩,
    ⟨1, "", { stage := .fragment, entry := "main", blocks := [⟨"vs_source", 0, 0, []⟩] }⟩], []⟩

def tangled : Compilations :=
  .ofList [(.glsl330, tangledCompilation), (.glsl100, tangledCompilation)]

/-- What the header of the file defines. -/
def tangledIdentifiers : List String :=
  ["m_vs_source_t",
    "m_vs_source_glsl330", "m_vs_source_glsl330_source_glsl330",
    "m_vs_shader_desc_glsl330", "m_vs_shader_desc_shader_desc_glsl330",
    "m_vs_source_glsl100", "m_vs_source_glsl330_source_glsl100",
    "m_vs_shader_desc_glsl100", "m_vs_shader_desc_shader_desc_glsl100",
    "m_vs_shader_desc", "m_vs_shader_desc_shader_desc"]

/-- The names are distinct all the same. -/
theorem identifiers_distinct_of_tangled : ∃ h,
    Header.make? tangledFile tangled (.ofCompilations tangled "quad.h") = .ok h ∧
      h.lines.filterMap identifier? = tangledIdentifiers ∧ tangledIdentifiers.Nodup := by
  obtain ⟨h, hmake, hidentifiers⟩ : ∃ h,
      Header.make? tangledFile tangled (.ofCompilations tangled "quad.h") = .ok h ∧
        h.identifiers = tangledIdentifiers := exists_of_map_toOption (by decide +kernel)
  obtain ⟨htext, hnodup⟩ := Header.identifiers_distinct hmake (by decide) (by decide)
  rw [hidentifiers] at htext hnodup
  exact ⟨h, hmake, htext, hnodup⟩

end Sample

end ShaderHeader
