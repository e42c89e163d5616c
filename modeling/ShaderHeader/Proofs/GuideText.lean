import ShaderHeader.Header.Guide
import ShaderHeader.Proofs.Reading.Comment

/-!
# The text of guides

The guide is one comment. Its lines are made of words and of fixed pieces without stars, so none of
them ends the comment early.
-/

namespace ShaderHeader

open Reading

/-- A piece of a line in a comment, without anything that could end it. -/
def IsRemark (x : String) : Prop :=
  '\n' ∉ x.toList ∧ '*' ∉ x.toList

namespace IsRemark

variable {x y : String}

/-- A fixed text can be checked. -/
lemma of_chars {cs : List Char} (h : (cs.all fun c => c != '\n' && c != '*') = true) :
    IsRemark (String.ofList cs) := by
  simp only [List.all_eq_true, Bool.and_eq_true, bne_iff_ne] at h
  rw [IsRemark, String.toList_ofList]
  exact ⟨fun hc => (h _ hc).1 rfl, fun hc => (h _ hc).2 rfl⟩

lemma append (hx : IsRemark x) (hy : IsRemark y) : IsRemark (x ++ y) := by
  constructor
  · simp [hx.1, hy.1]
  · simp [hx.2, hy.2]

lemma of_isWord {w : String} (h : IsWord w) : IsRemark w :=
  ⟨h.notMem (by decide), h.notMem (by decide)⟩

lemma repr (n : Nat) : IsRemark n.repr :=
  of_isWord (isWord_repr n)

end IsRemark

/-- The start of a line in a comment, which a star at the end of the line above does not turn into
the end of the comment. -/
structure StartsRemark (x : String) : Prop where
  isRemark : IsRemark x
  head : ∃ c ∈ x.toList.head?, c ≠ '/'

namespace StartsRemark

variable {x y : String}

/-- A fixed text that is indented can be checked. -/
lemma of_chars {cs : List Char} (h : ((' ' :: cs).all fun c => c != '\n' && c != '*') = true) :
    StartsRemark (String.ofList (' ' :: cs)) :=
  ⟨.of_chars h, ' ', by simp, by decide⟩

lemma append (hx : StartsRemark x) (hy : IsRemark y) : StartsRemark (x ++ y) := by
  obtain ⟨hx, c, hc, hslash⟩ := hx
  obtain ⟨cs, hcs⟩ := List.head?_eq_some_iff.mp hc
  exact ⟨hx.append hy, c, by simp [hcs], hslash⟩

end StartsRemark

lemma Reading.CommentLine.empty : CommentLine "" :=
  .of_notMem (by simp) (by simp) (by simp)

lemma Reading.CommentLine.of_start {x : String} (h : StartsRemark x) : CommentLine x := by
  obtain ⟨⟨hnewline, hstar⟩, c, hc, hslash⟩ := h
  apply CommentLine.of_notMem hnewline hstar
  intro hhead
  exact hslash (Option.some.inj (hc.symm.trans hhead))

/-- A constant in the guide, after a fixed text. -/
lemma Reading.CommentLine.constant {x : String} {c : Constant} (hx : StartsRemark x)
    (hname : IsRemark c.name) : CommentLine (x ++ c.name ++ " = " ++ c.value.repr) := by
  have hequals : IsRemark " = " := .of_chars rfl
  exact .of_start (.append (.append (.append hx hname) hequals) (.repr _))

/-! ### Parts of the guide -/

/-- The names in the guide to a block. -/
def BlockGuide.names (b : BlockGuide) : List String :=
  [b.name, b.struct, b.constant.name] ++ b.uniforms

lemma BlockGuide.commentLine_stageLines {b : BlockGuide} (h : ∀ n ∈ b.names, IsRemark n) :
    ∀ l ∈ b.stageLines, CommentLine l := by
  simp only [names, List.cons_append, List.forall_mem_cons] at h
  obtain ⟨hname, hstruct, hconstant, -⟩ := h
  simp only [stageLines, List.forall_mem_cons]
  refine ⟨?_, ?_, ?_, by simp⟩
  · exact .of_start (.append (.append (.of_chars rfl) hname) (.of_chars rfl))
  · exact .of_start (.append (.of_chars rfl) hstruct)
  · exact .constant (.of_chars rfl) hconstant

lemma BlockGuide.commentLine_usageLines {b : BlockGuide} (h : ∀ n ∈ b.names, IsRemark n) :
    ∀ l ∈ b.usageLines, CommentLine l := by
  simp only [names, List.cons_append, List.nil_append, List.forall_mem_cons] at h
  obtain ⟨hname, hstruct, hconstant, huniforms⟩ := h
  have hlines : ∀ l ∈ b.uniforms.map (fun u => s!"            .{u} = ...;"), CommentLine l := by
    simp only [List.forall_mem_map]
    intro u hu
    exact .of_start
      (.append (.append (.of_chars rfl) (huniforms u hu)) (.of_chars rfl))
  simp only [usageLines, List.forall_mem_append, List.forall_mem_cons]
  have hopen : StartsRemark "        " := .of_chars rfl
  have hclose : StartsRemark "        \x7d;" := .of_chars rfl
  refine ⟨⟨⟨?_, .empty, ?_, by simp⟩, hlines⟩, .of_start hclose, ?_, .empty, by simp⟩
  · exact .of_start (.append (.append (.of_chars rfl) hname) (.of_chars rfl))
  · have hspace : IsRemark " " := .of_chars rfl
    have hbrace : IsRemark " = \x7b" := .of_chars rfl
    exact .of_start (.append (.append (.append (.append hopen hstruct) hspace) hname) hbrace)
  · have haddress : IsRemark ", &" := .of_chars rfl
    have hsize : IsRemark ", sizeof(" := .of_chars rfl
    have hend : IsRemark "));" := .of_chars rfl
    refine .of_start (.append (.of_chars rfl) ?_)
    exact .append (.append (.append (.append (.append hconstant haddress) hname) hsize) hname) hend

/-- The names in the guide to an image. -/
def ImageGuide.names (m : ImageGuide) : List String :=
  [m.name, m.constant.name]

lemma ImageGuide.commentLine_stageLines {m : ImageGuide} (h : ∀ n ∈ m.names, IsRemark n) :
    ∀ l ∈ m.stageLines, CommentLine l := by
  simp only [names, List.forall_mem_cons] at h
  obtain ⟨hname, hconstant, -⟩ := h
  have htype : IsRemark m.type.constant := by cases m.type <;> exact .of_chars rfl
  simp only [stageLines, List.forall_mem_cons]
  refine ⟨?_, ?_, ?_, by simp⟩
  · exact .of_start (.append (.append (.of_chars rfl) hname) (.of_chars rfl))
  · exact .of_start (.append (.of_chars rfl) htype)
  · exact .constant (.of_chars rfl) hconstant

/-- The names in the guide to a stage. -/
def StageGuide.names (s : StageGuide) : List String :=
  s.snippet :: s.blocks.flatMap BlockGuide.names ++ s.images.flatMap ImageGuide.names

lemma StageGuide.commentLine_lines {s : StageGuide} (h : ∀ n ∈ s.names, IsRemark n) :
    ∀ l ∈ s.lines, CommentLine l := by
  simp only [names, List.cons_append, List.forall_mem_cons, List.forall_mem_append,
    List.forall_mem_flatMap] at h
  simp only [lines, List.forall_mem_append, List.forall_mem_flatMap]
  exact ⟨fun b hb => BlockGuide.commentLine_stageLines (h.2.1 b hb),
    fun m hm => ImageGuide.commentLine_stageLines (h.2.2 m hm)⟩

/-- The names in the guide to a program. -/
def ProgramGuide.names (p : ProgramGuide) : List String :=
  [p.name, p.accessor] ++ p.locations.map Constant.name ++ p.vertex.names ++ p.fragment.names

lemma ProgramGuide.commentLine_lines {p : ProgramGuide} (h : ∀ n ∈ p.names, IsRemark n) :
    ∀ l ∈ p.lines, CommentLine l := by
  simp only [names, List.cons_append, List.nil_append, List.forall_mem_cons,
    List.forall_mem_append, List.forall_mem_map] at h
  obtain ⟨hname, haccessor, ⟨hlocations, hvertex⟩, hfragment⟩ := h
  have hsnippet : IsRemark p.vertex.snippet := hvertex _ List.mem_cons_self
  have hsnippet' : IsRemark p.fragment.snippet := hfragment _ List.mem_cons_self
  have hlines : ∀ l ∈ p.locations.map (fun c => s!"                    {c.name} = {c.value}"),
      CommentLine l := by
    simp only [List.forall_mem_map]
    intro c hc
    exact .constant (.of_chars rfl) (hlocations c hc)
  simp only [lines, List.forall_mem_append, List.forall_mem_cons]
  refine ⟨⟨⟨⟨⟨⟨?_, ?_, ?_, .of_start (.of_chars rfl), by simp⟩, hlines⟩,
    StageGuide.commentLine_lines hvertex⟩, ?_, by simp⟩, StageGuide.commentLine_lines hfragment⟩,
    .empty, by simp⟩
  · exact .of_start (.append (.append (.of_chars rfl) hname) (.of_chars rfl))
  · exact .of_start (.append (.append (.of_chars rfl) haccessor) (.of_chars rfl))
  · exact .of_start (.append (.of_chars rfl) hsnippet)
  · exact .of_start (.append (.of_chars rfl) hsnippet')

lemma ProgramGuide.commentLine_usageLine {p : ProgramGuide} (h : ∀ n ∈ p.names, IsRemark n) :
    CommentLine p.usageLine := by
  simp only [names, List.cons_append, List.forall_mem_cons] at h
  obtain ⟨hname, haccessor, -⟩ := h
  have hopen : StartsRemark "        sg_shader " := .of_chars rfl
  have hmake : IsRemark " = sg_make_shader(" := .of_chars rfl
  have hend : IsRemark "());" := .of_chars rfl
  exact .of_start (.append (.append (.append (.append hopen hname) hmake) haccessor) hend)

/-- The names in the guide to a vertex snippet. -/
def VertexInputs.names (v : VertexInputs) : List String :=
  v.snippet :: v.locations.map Constant.name

lemma VertexInputs.commentLine_usageLines {v : VertexInputs} (h : ∀ n ∈ v.names, IsRemark n) :
    ∀ l ∈ v.usageLines, CommentLine l := by
  simp only [names, List.forall_mem_cons, List.forall_mem_map] at h
  obtain ⟨hsnippet, hlocations⟩ := h
  have hlines : ∀ l ∈ v.locations.map
      (fun c => s!"                    [{c.name}] = \x7b ... \x7d,"), CommentLine l := by
    simp only [List.forall_mem_map]
    intro c hc
    exact .of_start
      (.append (.append (.of_chars rfl) (hlocations c hc)) (.of_chars rfl))
  simp only [usageLines, List.forall_mem_append, List.forall_mem_cons]
  refine ⟨⟨⟨?_, .empty, ?_, ?_, ?_, by simp⟩, hlines⟩, ?_, ?_, ?_, .empty, by simp⟩
  · exact .of_start (.append (.append (.of_chars rfl) hsnippet) (.of_chars rfl))
  all_goals exact .of_start (.of_chars rfl)

/-! ### The guide -/

namespace Guide

/-- The names in a guide. -/
def names (g : Guide) : List String :=
  g.programs.flatMap ProgramGuide.names ++ g.inputs.flatMap VertexInputs.names ++
    g.images.map Constant.name ++ g.blocks.flatMap BlockGuide.names

/-- The lines between the start and the end of the comment. -/
def remarks (g : Guide) : List String :=
  [s!"    #version:{g.version}# (machine generated, don't edit!)",
    "",
    "    Generated by sokol-shdc (https://github.com/floooh/sokol-tools)",
    "",
    "    Overview:",
    ""] ++
  g.programs.flatMap ProgramGuide.lines ++
  ["",
    "    Shader descriptor structs:",
    ""] ++
  g.programs.map ProgramGuide.usageLine ++ [""] ++
  g.inputs.flatMap VertexInputs.usageLines ++
  ["    Image bind slots, use as index in sg_bindings.vs_images[] or .fs_images[]",
    ""] ++
  g.images.map (fun c => s!"        {c.name} = {c.value};") ++ [""] ++
  g.blocks.flatMap BlockGuide.usageLines

lemma lines_eq (g : Guide) :
    g.lines = "/*" :: g.remarks ++ ["*/"] ++ ["#include <stdint.h>", "#include <stdbool.h>"] := by
  simp [lines, remarks]

lemma commentLine_remarks {g : Guide} (h : ∀ n ∈ g.names, IsRemark n) :
    ∀ l ∈ g.remarks, CommentLine l := by
  simp only [names, List.forall_mem_append, List.forall_mem_flatMap, List.forall_mem_map] at h
  obtain ⟨⟨⟨hprograms, hinputs⟩, himages⟩, hblocks⟩ := h
  -- the parts with names: images
  have himages : ∀ l ∈ g.images.map (fun c => s!"        {c.name} = {c.value};"),
      CommentLine l := by
    simp only [List.forall_mem_map]
    intro c hc
    have hopen : StartsRemark "        " := .of_chars rfl
    have hequals : IsRemark " = " := .of_chars rfl
    have hend : IsRemark ";" := .of_chars rfl
    exact .of_start
      (.append (.append (.append (.append hopen (himages c hc)) hequals) (.repr _)) hend)
  -- programs and how to use them
  have hprograms' : ∀ l ∈ g.programs.flatMap ProgramGuide.lines, CommentLine l := by
    simp only [List.forall_mem_flatMap]
    intro p hp
    exact ProgramGuide.commentLine_lines (hprograms p hp)
  have husage : ∀ l ∈ g.programs.map ProgramGuide.usageLine, CommentLine l := by
    simp only [List.forall_mem_map]
    intro p hp
    exact ProgramGuide.commentLine_usageLine (hprograms p hp)
  -- inputs and blocks, in the order of the guide
  have hinputs : ∀ l ∈ g.inputs.flatMap VertexInputs.usageLines, CommentLine l := by
    simp only [List.forall_mem_flatMap]
    intro v hv
    exact VertexInputs.commentLine_usageLines (hinputs v hv)
  have hblocks : ∀ l ∈ g.blocks.flatMap BlockGuide.usageLines, CommentLine l := by
    simp only [List.forall_mem_flatMap]
    intro b hb
    exact BlockGuide.commentLine_usageLines (hblocks b hb)
  simp only [remarks, List.forall_mem_append, List.forall_mem_cons]
  refine ⟨⟨⟨⟨⟨⟨⟨⟨⟨?_, hprograms'⟩, ?_⟩, husage⟩, ?_⟩, hinputs⟩, ?_⟩, himages⟩, ?_⟩, hblocks⟩
  · -- the head, which has the version in it
    refine ⟨?_, .empty, .of_start (.of_chars rfl), .empty,
      .of_start (.of_chars rfl), .empty, by simp⟩
    exact .of_start (.append (.append (.of_chars rfl) (.repr _)) (.of_chars rfl))
  · -- the title of the descriptors
    exact ⟨.empty, .of_start (.of_chars rfl), .empty, by simp⟩
  · exact ⟨.empty, by simp⟩
  · -- the title of the image slots
    exact ⟨.of_start (.of_chars rfl), .empty, by simp⟩
  · exact ⟨.empty, by simp⟩

end Guide

end ShaderHeader
