import ShaderHeader.Header
import ShaderHeader.Proofs.Reading.Definition

/-!
# Identifiers in the text

A header defines arrays, descriptors, accessors and structs at the start of a line. Every other line
is indented, is a directive or a part of a comment, or closes what has been opened.
-/

namespace ShaderHeader

namespace Reading

/-- What a line has between its start and its end. -/
def between? (start ending line : String) : Option String :=
  ((line.toList.dropPrefix? start.toList).bind (before? ending.toList)).map .ofList

lemma between?_append (start name ending : String) :
    between? start ending (start ++ name ++ ending) = some name := by
  have hdrop : (start ++ name ++ ending).toList.dropPrefix? start.toList =
      some (name.toList ++ ending.toList) := by
    rw [String.toList_append, String.toList_append, List.append_assoc]
    exact List.dropPrefix?_append_of_beq _ (beq_self_eq_true _)
  rw [between?, hdrop, Option.bind_some, before?_append, Option.map_some, String.ofList_toList]

/-- What a line defines: an array or a descriptor, an accessor, or a struct whose declaration it
ends. -/
def identifier? (line : String) : Option String :=
  match heading? line with
  | some (.array _ name _)  => some name
  | some (.descriptor name) => some name
  | none                    =>
    (between? "static inline const sg_shader_desc* " "(void) \x7b" line).or
      (between? "\x7d " ";" line)

lemma identifier?_array {type : String} (htype : type = "char" ∨ type = "uint8_t") (name : String)
    (length : Nat) : identifier? s!"static const {type} {name}[{length}] = \x7b" = some name := by
  rw [identifier?, heading?_array htype]

lemma identifier?_descriptor (name : String) :
    identifier? s!"static const sg_shader_desc {name} = \x7b" = some name := by
  rw [identifier?, heading?_descriptor]

/-! ### Starts of lines -/

lemma between?_eq_none {line : String} {as : List Char} {a : Char}
    (h : line.toList.head? ≠ some a) (ending : String) :
    between? (String.ofList (a :: as)) ending line = none := by
  rw [between?, dropPrefix?_eq_none h, Option.bind_none, Option.map_none]

lemma heading?_eq_none {line : String} (h : line.toList.dropPrefix? "static const ".toList = none) :
    heading? line = none := by
  simp only [heading?, h, Option.bind_eq_bind, Option.bind_none]

lemma identifier?_accessor (name : String) :
    identifier? s!"static inline const sg_shader_desc* {name}(void) \x7b" = some name := by
  have hheading : heading? s!"static inline const sg_shader_desc* {name}(void) \x7b" = none := by
    have hstart : "static inline const sg_shader_desc* ".toList = _ := String.toList_ofList
    have hstatic : "static const ".toList = _ := String.toList_ofList
    apply heading?_eq_none
    simp only [toString, String.toList_append, List.append_assoc, hstart, hstatic]
    rfl
  have hname : between? "static inline const sg_shader_desc* " "(void) \x7b"
      s!"static inline const sg_shader_desc* {name}(void) \x7b" = some name :=
    between?_append _ _ _
  rw [identifier?, hheading, hname, Option.some_or]

/-- Only arrays, descriptors and accessors start with this character. -/
lemma identifier?_of_head {line : String} (h : line.toList.head? ≠ some 's') :
    identifier? line = between? "\x7d " ";" line := by
  have haccessor : between? "static inline const sg_shader_desc* " "(void) \x7b" line = none :=
    between?_eq_none h _
  rw [identifier?, heading?_eq_none (dropPrefix?_eq_none h), haccessor, Option.none_or]

lemma identifier?_struct (name : String) : identifier? s!"\x7d {name};" = some name := by
  rw [identifier?_of_head (by simp)]
  exact between?_append _ _ _

/-! ### Lines without a definition -/

/-- A line that defines nothing. -/
def Plain (line : String) : Prop :=
  identifier? line = none

/-- The start of a line that cannot define anything. -/
def StartsPlain (x : String) : Prop :=
  ∃ c ∈ x.toList.head?, c ≠ 's' ∧ c ≠ '\x7d'

namespace StartsPlain

variable {x : String}

lemma of_chars {c : Char} {cs : List Char} (h : c ≠ 's' ∧ c ≠ '\x7d') :
    StartsPlain (String.ofList (c :: cs)) :=
  ⟨c, by simp, h⟩

lemma indented {cs : List Char} : StartsPlain (String.ofList (' ' :: cs)) :=
  of_chars (by decide)

lemma directive {cs : List Char} : StartsPlain (String.ofList ('#' :: cs)) :=
  of_chars (by decide)

lemma append (hx : StartsPlain x) (y : String) : StartsPlain (x ++ y) := by
  obtain ⟨c, hc, hplain⟩ := hx
  obtain ⟨cs, hcs⟩ := List.head?_eq_some_iff.mp hc
  exact ⟨c, by simp [hcs], hplain⟩

end StartsPlain

namespace Plain

lemma of_head {line : String} (hs : line.toList.head? ≠ some 's')
    (hbrace : line.toList.head? ≠ some '\x7d') : Plain line := by
  rw [Plain, identifier?_of_head hs]
  exact between?_eq_none hbrace _

lemma of_start {line : String} (h : StartsPlain line) : Plain line := by
  obtain ⟨c, hc, hs, hbrace⟩ := h
  rw [Option.mem_def] at hc
  apply of_head
  · simpa [hc] using hs
  · simpa [hc] using hbrace

lemma empty : Plain "" :=
  of_head (by simp) (by simp)

/-- Arrays and functions are closed without a name. -/
lemma closing : Plain "\x7d" ∧ Plain "\x7d;" := by
  have hstart : "\x7d ".toList = _ := String.toList_ofList
  have hfunction : "\x7d".toList = _ := String.toList_ofList
  have harray : "\x7d;".toList = _ := String.toList_ofList
  constructor
  · rw [Plain, identifier?_of_head (by simp [hfunction]), between?, hfunction, hstart]
    rfl
  · rw [Plain, identifier?_of_head (by simp [harray]), between?, harray, hstart]
    rfl

end Plain

lemma filterMap_identifier?_of_plain {L : List String} (h : ∀ l ∈ L, Plain l) :
    L.filterMap identifier? = [] :=
  List.filterMap_eq_nil_iff.mpr h

end Reading

open Reading

/-! ### The guide -/

lemma BlockGuide.plain_stageLines (b : BlockGuide) : ∀ l ∈ b.stageLines, Plain l := by
  simp only [stageLines, List.forall_mem_cons]
  refine ⟨?_, ?_, ?_, by simp⟩
  · exact .of_start (.append (.append .indented _) _)
  · exact .of_start (.append .indented _)
  · exact .of_start (.append (.append (.append .indented _) _) _)

lemma BlockGuide.plain_usageLines (b : BlockGuide) : ∀ l ∈ b.usageLines, Plain l := by
  have hlines : ∀ l ∈ b.uniforms.map (fun u => s!"            .{u} = ...;"), Plain l := by
    simp only [List.forall_mem_map]
    intro u _
    exact .of_start (.append (.append .indented _) _)
  simp only [usageLines, List.forall_mem_append, List.forall_mem_cons]
  refine ⟨⟨⟨?_, .empty, ?_, by simp⟩, hlines⟩, .of_start .indented, ?_, .empty, by simp⟩
  · exact .of_start (.append (.append .indented _) _)
  · exact .of_start (.append (.append (.append (.append .indented _) _) _) _)
  · exact .of_start (.append .indented _)

lemma ImageGuide.plain_stageLines (m : ImageGuide) : ∀ l ∈ m.stageLines, Plain l := by
  simp only [stageLines, List.forall_mem_cons]
  refine ⟨?_, ?_, ?_, by simp⟩
  · exact .of_start (.append (.append .indented _) _)
  · exact .of_start (.append .indented _)
  · exact .of_start (.append (.append (.append .indented _) _) _)

lemma StageGuide.plain_lines (s : StageGuide) : ∀ l ∈ s.lines, Plain l := by
  simp only [lines, List.forall_mem_append, List.forall_mem_flatMap]
  exact ⟨fun b _ => b.plain_stageLines, fun m _ => m.plain_stageLines⟩

lemma ProgramGuide.plain_lines (p : ProgramGuide) : ∀ l ∈ p.lines, Plain l := by
  have hlines : ∀ l ∈ p.locations.map (fun c => s!"                    {c.name} = {c.value}"),
      Plain l := by
    simp only [List.forall_mem_map]
    intro c _
    exact .of_start (.append (.append (.append .indented _) _) _)
  simp only [lines, List.forall_mem_append, List.forall_mem_cons]
  refine ⟨⟨⟨⟨⟨⟨?_, ?_, ?_, .of_start .indented, by simp⟩, hlines⟩, p.vertex.plain_lines⟩, ?_,
    by simp⟩, p.fragment.plain_lines⟩, .empty, by simp⟩
  · exact .of_start (.append (.append .indented _) _)
  · exact .of_start (.append (.append .indented _) _)
  · exact .of_start (.append .indented _)
  · exact .of_start (.append .indented _)

lemma ProgramGuide.plain_usageLine (p : ProgramGuide) : Plain p.usageLine :=
  .of_start (.append (.append (.append (.append .indented _) _) _) _)

lemma VertexInputs.plain_usageLines (v : VertexInputs) : ∀ l ∈ v.usageLines, Plain l := by
  have hlines : ∀ l ∈ v.locations.map
      (fun c => s!"                    [{c.name}] = \x7b ... \x7d,"), Plain l := by
    simp only [List.forall_mem_map]
    intro c _
    exact .of_start (.append (.append .indented _) _)
  simp only [usageLines, List.forall_mem_append, List.forall_mem_cons]
  refine ⟨⟨⟨?_, .empty, ?_, ?_, ?_, by simp⟩, hlines⟩, ?_, ?_, ?_, .empty, by simp⟩
  · exact .of_start (.append (.append .indented _) _)
  all_goals exact .of_start .indented

lemma Guide.plain_lines (g : Guide) : ∀ l ∈ g.lines, Plain l := by
  have himages : ∀ l ∈ g.images.map (fun c => s!"        {c.name} = {c.value};"), Plain l := by
    simp only [List.forall_mem_map]
    intro c _
    exact .of_start (.append (.append (.append (.append .indented _) _) _) _)
  have hprograms : ∀ l ∈ g.programs.flatMap ProgramGuide.lines, Plain l :=
    List.forall_mem_flatMap.mpr fun p _ => p.plain_lines
  have husage : ∀ l ∈ g.programs.map ProgramGuide.usageLine, Plain l :=
    List.forall_mem_map.mpr fun p _ => p.plain_usageLine
  have hinputs : ∀ l ∈ g.inputs.flatMap VertexInputs.usageLines, Plain l :=
    List.forall_mem_flatMap.mpr fun v _ => v.plain_usageLines
  have hblocks : ∀ l ∈ g.blocks.flatMap BlockGuide.usageLines, Plain l :=
    List.forall_mem_flatMap.mpr fun b _ => b.plain_usageLines
  simp only [lines, List.forall_mem_append, List.forall_mem_cons]
  refine ⟨⟨⟨⟨⟨⟨⟨⟨⟨⟨?_, hprograms⟩, ?_⟩, husage⟩, ?_⟩, hinputs⟩, ?_⟩, himages⟩, ?_⟩, hblocks⟩, ?_⟩
  · refine ⟨.of_start (.of_chars (by decide)), ?_, .empty, .of_start .indented, .empty,
      .of_start .indented, .empty, by simp⟩
    exact .of_start (.append (.append .indented _) _)
  · exact ⟨.empty, .of_start .indented, .empty, by simp⟩
  · exact ⟨.empty, by simp⟩
  · exact ⟨.of_start .indented, .empty, by simp⟩
  · exact ⟨.empty, by simp⟩
  · exact ⟨.of_start (.of_chars (by decide)), .of_start .directive, .of_start .directive, by simp⟩

/-! ### Declarations -/

lemma Constant.plain_line (k : Constant) : Plain k.line :=
  .of_start (.append (.append (.append (.append .directive _) _) _) _)

lemma Member.plain_line (m : Member) : Plain m.line := by
  fun_cases Member.line m with
  | case1 => exact .of_start (.append (.append (.append (.append .indented _) _) _) _)
  | case2 => exact .of_start (.append (.append (.append (.append (.append .indented _) _) _) _) _)
  | case3 => exact .of_start (.append (.append (.append (.append .indented _) _) _) _)
  | case4 => exact .of_start .indented

namespace HostStruct

/-- The lines of a struct define the struct, in the last but one of them. -/
lemma filterMap_identifier?_lines (qualifier : String) (s : HostStruct) :
    (s.lines qualifier).filterMap identifier? = [Naming.struct qualifier s.block] := by
  have hstart : ∀ l ∈ [(s.constant qualifier).line, "#pragma pack(push,1)",
      s!"SOKOL_SHDC_ALIGN({blockStride}) typedef struct {Naming.struct qualifier s.block} \x7b"] ++
        s.members.map Member.line, Plain l := by
    simp only [List.forall_mem_append, List.forall_mem_cons, List.forall_mem_map]
    refine ⟨⟨Constant.plain_line _, .of_start .directive, ?_, by simp⟩,
      fun m _ => m.plain_line⟩
    exact .of_start (.append (.append (.append (.append (.of_chars (by decide)) _) _) _) _)
  have hend : identifier? "#pragma pack(pop)" = none := Plain.of_start .directive
  rw [lines, List.filterMap_append, filterMap_identifier?_of_plain hstart, List.nil_append,
    List.filterMap_cons_some (identifier?_struct _), List.filterMap_cons_none hend,
    List.filterMap_nil]

end HostStruct

namespace Declarations

/-- The structs of some declarations, by name. -/
def identifiers (d : Declarations) : List String :=
  d.structs.map fun s => Naming.struct d.qualifier s.block

lemma filterMap_identifier?_lines (d : Declarations) :
    d.lines.filterMap identifier? = d.identifiers := by
  have halignment : ∀ l ∈ alignmentLines, Plain l := by
    simp only [alignmentLines, List.forall_mem_cons]
    refine ⟨?_, ?_, ?_, ?_, ?_, ?_, ?_, by simp⟩
    all_goals exact .of_start .directive
  have hconstants : ∀ ks : List Constant, ∀ l ∈ ks.map Constant.line, Plain l :=
    fun ks => List.forall_mem_map.mpr fun k _ => k.plain_line
  rw [lines, List.filterMap_append, List.filterMap_append, List.filterMap_append,
    filterMap_identifier?_of_plain halignment, filterMap_identifier?_of_plain (hconstants _),
    filterMap_identifier?_of_plain (hconstants _), List.filterMap_flatMap]
  simp only [HostStruct.filterMap_identifier?_lines, List.nil_append,
    identifiers, ← List.map_eq_flatMap]

end Declarations

lemma Opening.filterMap_identifier?_lines (s : Opening) :
    s.lines.filterMap identifier? = s.declarations.identifiers := by
  have hguards : ∀ l ∈ ["#if !defined(SOKOL_SHDC_DECL)", "#if !defined(SOKOL_GFX_INCLUDED)",
      s!"#error \"Please include sokol_gfx.h before {s.fileName}\"", "#endif"], Plain l := by
    simp only [List.forall_mem_cons]
    refine ⟨.of_start .directive, .of_start .directive, ?_, .of_start .directive, by simp⟩
    exact .of_start (.append (.append .directive _) _)
  rw [lines, List.filterMap_append, List.filterMap_append,
    filterMap_identifier?_of_plain s.guide.plain_lines,
    Declarations.filterMap_identifier?_lines, filterMap_identifier?_of_plain hguards,
    List.nil_append, List.append_nil]

/-! ### Sections -/

/-- What is conditional is defined as it stands. -/
lemma filterMap_identifier?_conditional {indent : String}
    (hindent : indent = "" ∨ indent = "    ") (symbol : Option String) (body : List String) :
    (conditional indent symbol body).filterMap identifier? = body.filterMap identifier? := by
  cases symbol with
  | none => rfl
  | some symbol =>
    have hif : identifier? s!"{indent}#if defined({symbol})" = none := by
      rcases hindent with rfl | rfl
      · exact Plain.of_start (.append (.append .directive _) _)
      · exact Plain.of_start (.append (.append (.append .indented _) _) _)
    have hendif : identifier? s!"{indent}#endif /* {symbol} */" = none := by
      rcases hindent with rfl | rfl
      · exact Plain.of_start (.append (.append .directive _) _)
      · exact Plain.of_start (.append (.append (.append .indented _) _) _)
    rw [conditional, List.filterMap_append, List.filterMap_cons_none hif,
      List.filterMap_cons_none hendif, List.filterMap_nil, List.append_nil]

lemma plain_rowLine (row : List UInt8) : Plain (rowLine row) := by
  cases row with
  | nil      => exact .empty
  | cons b r => exact .of_start (.append .indented _)

lemma plain_commentLines (text : String) : ∀ l ∈ commentLines text, Plain l := by
  simp only [commentLines, List.forall_mem_cons, List.forall_mem_append, List.forall_mem_map,
    List.cons_append]
  exact ⟨.of_start (.of_chars (by decide)), fun l _ => .of_start (.append .indented _),
    .of_start (.of_chars (by decide)), by simp⟩

lemma Embedding.filterMap_identifier?_lines {e : Embedding}
    (h : e.table.elementType = "char" ∨ e.table.elementType = "uint8_t") :
    e.lines.filterMap identifier? = [e.table.name] := by
  have hrows : ∀ l ∈ (splitRows (e.table.bytes.length / rowLength) e.table.bytes).map rowLine,
      Plain l := List.forall_mem_map.mpr fun row _ => plain_rowLine row
  have hend : identifier? "\x7d;" = none := Plain.closing.2
  rw [lines, List.filterMap_append, filterMap_identifier?_of_plain (plain_commentLines _),
    ByteTable.lines, List.filterMap_append, List.filterMap_cons_some (identifier?_array h _ _),
    filterMap_identifier?_of_plain hrows]
  simp [hend]

lemma plain_blockLines (b : Option BlockEntry) : ∀ l ∈ blockLines b, Plain l := by
  simp only [blockLines, List.forall_mem_cons]
  refine ⟨.of_start .indented, ?_, ?_, .of_start .indented, by simp⟩
  · exact .of_start (.append (.append .indented _) _)
  · exact .of_start (.append (.append .indented _) _)

lemma StageCode.plain_lines (c : StageCode) : ∀ l ∈ c.lines, Plain l := by
  cases c with
  | source array =>
    simp only [lines, List.forall_mem_cons]
    exact ⟨.of_start (.append (.append .indented _) _), .of_start .indented, .of_start .indented,
      by simp⟩
  | bytecode array size =>
    simp only [lines, List.forall_mem_cons]
    exact ⟨.of_start .indented, .of_start (.append (.append .indented _) _),
      .of_start (.append (.append .indented _) _), by simp⟩

lemma StageDescriptor.plain_lines (s : StageDescriptor) : ∀ l ∈ s.lines, Plain l := by
  have hblocks : ∀ l ∈ s.blocks.toList.flatMap blockLines, Plain l :=
    List.forall_mem_flatMap.mpr fun b _ => plain_blockLines b
  simp only [lines, List.forall_mem_append, List.forall_mem_cons]
  refine ⟨⟨⟨⟨?_, s.code.plain_lines⟩, ?_, .of_start .indented, by simp⟩, hblocks⟩,
    .of_start .indented, ?_, .of_start .indented, by simp⟩
  · exact .of_start (.append (.append .indented _) _)
  · exact .of_start (.append (.append .indented _) _)
  · exact .of_start (.append (.append .indented _) _)

lemma Descriptor.filterMap_identifier?_lines (d : Descriptor) :
    d.lines.filterMap identifier? = [d.name] := by
  -- all lines but the first are indented or close the descriptor
  have hrest : ∀ l ∈ ["  0, /* _start_canary */",
      "  \x7b /*attrs*/" ++ String.join (d.attributes.toList.map attributeText) ++ " \x7d,"] ++
        d.vertex.lines ++ d.fragment.lines ++
        [s!"  \"{d.label}\", /* label */", "  0, /* _end_canary */", "\x7d;"], Plain l := by
    simp only [List.forall_mem_append, List.forall_mem_cons]
    refine ⟨⟨⟨⟨.of_start .indented, ?_, by simp⟩, d.vertex.plain_lines⟩, d.fragment.plain_lines⟩,
      ?_, .of_start .indented, Plain.closing.2, by simp⟩
    · exact .of_start (.append (.append .indented _) _)
    · exact .of_start (.append (.append .indented _) _)
  have hlines : d.lines = s!"static const sg_shader_desc {d.name} = \x7b" ::
      (["  0, /* _start_canary */",
        "  \x7b /*attrs*/" ++ String.join (d.attributes.toList.map attributeText) ++ " \x7d,"] ++
        d.vertex.lines ++ d.fragment.lines ++
        [s!"  \"{d.label}\", /* label */", "  0, /* _end_canary */", "\x7d;"]) := rfl
  rw [hlines, List.filterMap_cons_some (identifier?_descriptor _),
    filterMap_identifier?_of_plain hrest]

namespace Section

/-- The arrays and the descriptors of a section, by name. -/
def identifiers (s : Section) : List String :=
  s.code.map (fun e => e.table.name) ++ s.descriptors.map Descriptor.name

lemma filterMap_identifier?_lines {s : Section}
    (h : ∀ e ∈ s.code, e.table.elementType = "char" ∨ e.table.elementType = "uint8_t") :
    s.lines.filterMap identifier? = s.identifiers := by
  rw [lines, filterMap_identifier?_conditional (.inl rfl), List.filterMap_append,
    List.filterMap_flatMap, List.filterMap_flatMap,
    List.flatMap_congr fun e he => Embedding.filterMap_identifier?_lines (h e he)]
  simp only [Descriptor.filterMap_identifier?_lines, ← List.map_eq_flatMap, identifiers]

end Section

/-! ### Accessors -/

lemma Choice.plain_onlyLines (c : Choice) : ∀ l ∈ c.onlyLines, Plain l := by
  refine List.filterMap_eq_nil_iff.mp ?_
  rw [onlyLines, filterMap_identifier?_conditional (.inr rfl)]
  refine filterMap_identifier?_of_plain (List.forall_mem_singleton.mpr ?_)
  exact .of_start (.append (.append .indented _) _)

lemma Choice.plain_testLines (c : Choice) : ∀ l ∈ c.testLines, Plain l := by
  refine List.filterMap_eq_nil_iff.mp ?_
  rw [testLines, filterMap_identifier?_conditional (.inr rfl)]
  apply filterMap_identifier?_of_plain
  simp only [List.forall_mem_cons]
  refine ⟨?_, ?_, .of_start .indented, by simp⟩
  · exact .of_start (.append (.append .indented _) _)
  · exact .of_start (.append (.append .indented _) _)

namespace Accessor

lemma plain_body (cs : List Choice) : ∀ l ∈ body cs, Plain l := by
  have hfallback : ∀ l ∈ fallback, Plain l :=
    List.forall_mem_singleton.mpr (.of_start .indented)
  fun_cases body cs with
  | case1 c =>
    refine List.forall_mem_append.mpr ⟨c.plain_onlyLines, ?_⟩
    split_ifs
    · exact hfallback
    · exact List.forall_mem_nil _
  | case2 =>
    exact List.forall_mem_append.mpr
      ⟨List.forall_mem_flatMap.mpr fun c _ => c.plain_testLines, hfallback⟩

lemma filterMap_identifier?_lines (a : Accessor) : a.lines.filterMap identifier? = [a.name] := by
  have hend : identifier? "\x7d" = none := Plain.closing.1
  rw [lines, List.filterMap_append, List.filterMap_cons_some (identifier?_accessor _),
    filterMap_identifier?_of_plain (plain_body _)]
  simp [hend]

end Accessor

/-! ### Headers -/

namespace Header

/-- What a header defines, by name: structs, then arrays and descriptors dialect by dialect, and
accessors. -/
def identifiers (h : Header) : List String :=
  h.opening.toList.flatMap (fun s => s.declarations.identifiers) ++
    h.sections.flatMap Section.identifiers ++ h.accessors.map Accessor.name

lemma filterMap_identifier?_lines {h : Header}
    (hcode : ∀ s ∈ h.sections, ∀ e ∈ s.code,
      e.table.elementType = "char" ∨ e.table.elementType = "uint8_t") :
    h.lines.filterMap identifier? = h.identifiers := by
  have hpragma : identifier? "#pragma once" = none := Plain.of_start .directive
  have hend : identifier? "#endif /* SOKOL_SHDC_DECL */" = none := Plain.of_start .directive
  have hlast : (if h.opening.isSome then ["#endif /* SOKOL_SHDC_DECL */"] else []).filterMap
      identifier? = [] := by
    split_ifs <;> simp [hend]
  simp only [lines, identifiers, List.filterMap_append, List.filterMap_flatMap,
    List.flatMap_congr fun s hs => Section.filterMap_identifier?_lines (hcode s hs),
    Opening.filterMap_identifier?_lines, Accessor.filterMap_identifier?_lines, hlast,
    List.filterMap_cons, hpragma, List.filterMap_nil, List.nil_append, List.append_nil,
    ← List.map_eq_flatMap]

end Header

end ShaderHeader
