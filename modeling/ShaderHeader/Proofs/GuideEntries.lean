import ShaderHeader.Header.Guide
import ShaderHeader.Proofs.Reading.Definition

/-!
# What the guide lists

For each program the guide lists constants with their values and the structs of uniform blocks.
Further down it lists the constants of all images once more. These entries are read back from the
lines of the guide; no other line is taken for an entry, whatever names have been chosen.
-/

namespace ShaderHeader

/-- What the guide gives its reader to use: a constant with its value, or a struct. -/
inductive GuideEntry
  | constant (k : Constant)
  | struct (name : String)
  deriving DecidableEq

namespace Reading

/-! ### Entries -/

/-- A line without the blanks at its start. -/
def unindent (cs : List Char) : List Char :=
  cs.dropWhile (· = ' ')

/-- The value at the end of a line, and what is in front of it. -/
def valued? (cs : List Char) : Option (List Char × Nat) := do
  let cs := cs.rdropWhile (· = ';')
  let value ← number? (.ofList (cs.rtakeWhile Char.isDigit))
  let rest ← before? " = ".toList (cs.rdropWhile Char.isDigit)
  return (rest, value)

/-- The names of locations and slots start in this way. -/
def IsListed (name : List Char) : Prop :=
  name.take 5 = ['A', 'T', 'T', 'R', '_'] ∨ name.take 5 = ['S', 'L', 'O', 'T', '_']
  deriving Decidable

/-- A constant, of which a label may tell that it is a slot. -/
def listedConstant? (rest : List Char) (value : Nat) : Option GuideEntry :=
  let cs := unindent rest
  let name := (cs.dropPrefix? "Bind slot: ".toList).getD cs
  if IsListed name then some (.constant ⟨.ofList name, value⟩) else none

/-- A struct, from what is in front of the end of its name. -/
def listedStruct? (rest : List Char) : Option GuideEntry :=
  ((unindent rest).dropPrefix? "C struct: ".toList).map fun name => .struct (.ofList name ++ "_t")

/-- What a line of the guide lists. -/
def listed? (line : String) : Option GuideEntry :=
  ((valued? line.toList).bind fun (rest, value) => listedConstant? rest value).or
    ((before? "_t".toList line.toList).bind listedStruct?)

/-! ### Lines without an entry -/

lemma valued?_concat {c : Char} (h : c.isDigit = false ∧ c ≠ ';') (cs : List Char) :
    valued? (cs ++ [c]) = none := by
  simp [valued?, h.1, h.2, number?]

/-- The last character of a line with an entry is a digit, a semicolon or this letter. -/
lemma listed?_concat {line : String} (cs : List Char) {c : Char} (hline : line.toList = cs ++ [c])
    (h : c.isDigit = false ∧ c ≠ ';') (ht : c ≠ 't') : listed? line = none := by
  have hend : "_t".toList = ['_', 't'] := String.toList_ofList
  have hbefore : before? "_t".toList line.toList = none := by
    refine Option.eq_none_iff_forall_ne_some.mpr fun rest hrest => ht ?_
    have hsame := hline.symm.trans (before?_eq_some_iff.mp hrest)
    rw [hend, List.append_cons rest] at hsame
    exact (List.append_inj' hsame rfl).2 |> List.cons.inj |>.1
  rw [listed?, hbefore, hline, valued?_concat h]
  rfl

lemma mem_head?_unindent {as cs : List Char} (h : as <+: cs) {c : Char}
    (hc : c ∈ (unindent as).head?) : c ∈ (unindent cs).head? := by
  obtain ⟨bs, rfl⟩ := h
  obtain ⟨rest, hrest⟩ := List.head?_eq_some_iff.mp hc
  rw [unindent] at hrest ⊢
  simp [List.dropWhile_append, hrest]

lemma prefix_of_valued? {cs rest : List Char} {value : Nat} (h : valued? cs = some (rest, value)) :
    rest <+: cs := by
  simp only [valued?, Option.bind_eq_bind, Option.bind_eq_some_iff, Option.pure_def,
    Option.some.injEq, Prod.mk.injEq] at h
  obtain ⟨-, -, r, hr, rfl, -⟩ := h
  have hname : r <+: (cs.rdropWhile (· = ';')).rdropWhile Char.isDigit :=
    ⟨_, (before?_eq_some_iff.mp hr).symm⟩
  exact hname.trans ((List.rdropWhile_prefix _ _).trans (List.rdropWhile_prefix _ _))

/-- The start of a line whose first character after the blanks is not that of an entry. -/
def StartsOther (x : String) : Prop :=
  ∃ c ∈ (unindent x.toList).head?, c ∉ ['A', 'B', 'C', 'S']

namespace StartsOther

variable {x : String}

/-- A fixed text can be checked. -/
lemma of_chars {cs : List Char}
    (h : ((unindent cs).head?.any fun c => c ∉ ['A', 'B', 'C', 'S']) = true) :
    StartsOther (String.ofList cs) := by
  obtain ⟨c, hc, hother⟩ := (Option.any_eq_true _ _).mp h
  exact ⟨c, by rwa [String.toList_ofList], of_decide_eq_true hother⟩

lemma append (hx : StartsOther x) (y : String) : StartsOther (x ++ y) := by
  obtain ⟨c, hc, hother⟩ := hx
  refine ⟨c, mem_head?_unindent ?_ hc, hother⟩
  rw [String.toList_append]
  exact List.prefix_append _ _

end StartsOther

lemma listedConstant?_eq_none {rest : List Char} (value : Nat)
    (h : ∀ c ∈ (unindent rest).head?, c ∉ ['A', 'B', 'S']) :
    listedConstant? rest value = none := by
  have hlabel : (unindent rest).dropPrefix? "Bind slot: ".toList = none :=
    dropPrefix?_eq_none fun hB => h _ hB (by simp)
  have hname : ¬ IsListed (unindent rest) := by
    cases hrest : unindent rest with
    | nil => simp [IsListed]
    | cons c cs =>
      have hc := h c (by simp [hrest])
      simp only [List.mem_cons, List.not_mem_nil, or_false, not_or] at hc
      simp [IsListed, hc.1, hc.2.2]
  rw [listedConstant?, hlabel, Option.getD_none, if_neg hname]

lemma listed?_of_start {line : String} (h : StartsOther line) : listed? line = none := by
  obtain ⟨c, hc, hother⟩ := h
  -- what is read as a constant or as a struct starts like the line itself
  have hstart : ∀ rest, rest <+: line.toList → ∀ a ∈ (unindent rest).head?,
      a ∉ ['A', 'B', 'C', 'S'] := by
    intro rest hrest a ha
    obtain rfl := Option.some.inj ((mem_head?_unindent hrest ha).symm.trans hc)
    exact hother
  have hconstant : ((valued? line.toList).bind fun (rest, value) => listedConstant? rest value) =
      none := by
    refine Option.bind_eq_none_iff.mpr fun (rest, value) hvalued => ?_
    refine listedConstant?_eq_none value fun a ha hmem => ?_
    refine hstart rest (prefix_of_valued? hvalued) a ha ?_
    rcases List.mem_cons.mp hmem with rfl | hmem
    · simp
    · rcases List.mem_pair.mp hmem with rfl | rfl <;> simp
  have hstruct : (before? "_t".toList line.toList).bind listedStruct? = none := by
    refine Option.bind_eq_none_iff.mpr fun rest hrest => ?_
    have hprefix : rest <+: line.toList := ⟨_, (before?_eq_some_iff.mp hrest).symm⟩
    rw [listedStruct?, dropPrefix?_eq_none fun hC => hstart rest hprefix _ hC (by simp),
      Option.map_none]
  rw [listed?, hconstant, hstruct, Option.or_none]

lemma listed?_empty : listed? "" = none := by
  simp [listed?, valued?, number?, before?, List.dropPrefix?]

/-! ### Lines with an entry -/

/-- A value is read from a line that ends with it, with or without a semicolon. -/
lemma valued?_append (rest : List Char) (n : Nat) {tail : List Char}
    (htail : tail = [] ∨ tail = [';']) :
    valued? (rest ++ " = ".toList ++ n.repr.toList ++ tail) = some (rest, n) := by
  have hdigits : ∀ c ∈ n.repr.toList.reverse, c.isDigit = true := by
    intro c hc
    rw [List.mem_reverse, Nat.toList_repr] at hc
    exact Nat.isDigit_of_mem_toDigits (by decide) (by decide) hc
  have hne : n.repr.toList ≠ [] := by simp
  have hblank : " = ".toList = [' ', '=', ' '] := String.toList_ofList
  -- at most one semicolon is dropped, as a digit stands in front of it
  have hdrop : (rest ++ " = ".toList ++ n.repr.toList ++ tail).rdropWhile (· = ';') =
      rest ++ " = ".toList ++ n.repr.toList := by
    obtain ⟨ds, d, hd⟩ := (List.eq_nil_or_concat n.repr.toList).resolve_left hne
    have hsemicolon : d ≠ ';' := by
      have hdigit := hdigits d (by simp [hd])
      rintro rfl
      cases hdigit
    rcases htail with rfl | rfl <;> simp [hd, ← List.append_assoc, hsemicolon]
  have hname : (rest ++ " = ".toList ++ n.repr.toList).rdropWhile Char.isDigit =
      rest ++ " = ".toList := by
    rw [List.rdropWhile, List.reverse_append, List.dropWhile_append_of_pos hdigits, hblank]
    simp
  have hvalue : (rest ++ " = ".toList ++ n.repr.toList).rtakeWhile Char.isDigit =
      n.repr.toList := by
    rw [List.rtakeWhile, List.reverse_append, List.takeWhile_append_of_pos hdigits, hblank]
    simp
  simp only [valued?, hdrop, hname, hvalue, String.ofList_toList, number?_repr, before?_append,
    Option.bind_eq_bind, Option.bind_some, Option.pure_def]

lemma listedConstant?_append {name : String} (h : IsListed name.toList) {indent label : List Char}
    (hindent : ∀ c ∈ indent, c = ' ') (hlabel : label = [] ∨ label = "Bind slot: ".toList)
    (value : Nat) :
    listedConstant? (indent ++ label ++ name.toList) value = some (.constant ⟨name, value⟩) := by
  have hhead : ∃ c cs, name.toList = c :: cs ∧ c ∈ ['A', 'S'] := by
    cases hname : name.toList with
    | nil => simp [hname, IsListed] at h
    | cons c cs =>
      refine ⟨c, cs, rfl, ?_⟩
      rw [hname] at h
      rcases h with h | h <;> simp [(List.cons.inj h).1]
  obtain ⟨c, cs, hname, hc⟩ := hhead
  have hstart : "Bind slot: ".toList = 'B' :: _ := String.toList_ofList
  have hunindent : unindent (indent ++ label ++ name.toList) = label ++ name.toList := by
    rw [unindent, List.append_assoc, List.dropWhile_append_of_pos (by simpa using hindent)]
    rcases hlabel with rfl | rfl
    · rw [hname]
      rcases List.mem_pair.mp hc with rfl | rfl <;> rfl
    · rw [hstart]
      rfl
  -- without a label nothing is dropped: no name starts like one
  have hdrop : ((label ++ name.toList).dropPrefix? "Bind slot: ".toList).getD
      (label ++ name.toList) = name.toList := by
    rcases hlabel with rfl | rfl
    · rw [List.nil_append, dropPrefix?_eq_none, Option.getD_none]
      rw [hname]
      rcases List.mem_pair.mp hc with rfl | rfl <;> simp
    · rw [List.dropPrefix?_append_of_beq _ (beq_self_eq_true _), Option.getD_some]
  rw [listedConstant?, hunindent, hdrop, if_pos h, String.ofList_toList]

lemma listed?_of_constant {line : String} {k : Constant} (h : IsListed k.name.toList)
    (indent : List Char) {label tail : List Char} (hindent : ∀ c ∈ indent, c = ' ')
    (hlabel : label = [] ∨ label = "Bind slot: ".toList) (htail : tail = [] ∨ tail = [';'])
    (hline : line.toList =
      indent ++ label ++ k.name.toList ++ " = ".toList ++ k.value.repr.toList ++ tail) :
    listed? line = some (.constant k) := by
  rw [listed?, hline, valued?_append _ _ htail, Option.bind_some]
  exact congrArg (Option.or · _) (listedConstant?_append h hindent hlabel k.value)

/-- The location of an input, in the listing of a program. -/
lemma listed?_location {k : Constant} (h : IsListed k.name.toList) :
    listed? s!"                    {k.name} = {k.value}" = some (.constant k) :=
  listed?_of_constant h (List.replicate 20 ' ') (by simp) (.inl rfl) (.inl rfl) (by simp)

/-- The slot of a resource, in the listing of a program. -/
lemma listed?_slot {k : Constant} (h : IsListed k.name.toList) :
    listed? s!"                    Bind slot: {k.name} = {k.value}" = some (.constant k) :=
  listed?_of_constant h (List.replicate 20 ' ') (by simp) (.inr rfl) (.inl rfl) (by simp)

/-- The slot of an image, in the listing of images. -/
lemma listed?_image {k : Constant} (h : IsListed k.name.toList) :
    listed? s!"        {k.name} = {k.value};" = some (.constant k) :=
  listed?_of_constant h (List.replicate 8 ' ') (by simp) (.inl rfl) (.inr rfl) (by simp)

/-- The struct of a block, in the listing of a program. -/
lemma listed?_struct (name : String) :
    listed? ("                    C struct: " ++ (name ++ "_t")) =
      some (.struct (name ++ "_t")) := by
  have hline : ("                    C struct: " ++ (name ++ "_t")).toList =
      List.replicate 20 ' ' ++ ("C struct: ".toList ++ name.toList) ++ "_t".toList := by
    simp
  have hend : "_t".toList = ['_', 't'] := String.toList_ofList
  have hstart : "C struct: ".toList = 'C' :: _ := String.toList_ofList
  have hvalued : valued? ("                    C struct: " ++ (name ++ "_t")).toList = none := by
    rw [hline, hend, List.append_cons]
    exact valued?_concat (by decide) _
  have hunindent : unindent (List.replicate 20 ' ' ++ ("C struct: ".toList ++ name.toList)) =
      "C struct: ".toList ++ name.toList := by
    rw [unindent, List.dropWhile_append_of_pos (by simp), hstart]
    rfl
  rw [listed?, hvalued, hline, before?_append, Option.bind_none, Option.none_or, Option.bind_some,
    listedStruct?, hunindent, List.dropPrefix?_append_of_beq _ (beq_self_eq_true _),
    Option.map_some, String.ofList_toList]

/-- Titles end with a colon. -/
lemma listed?_title (x : String) : listed? (x ++ "':") = none :=
  listed?_concat (x.toList ++ ['\'']) (c := ':') (by simp) (by decide) (by decide)

/-- The first line of an initialiser ends with a brace. -/
lemma listed?_initialiser (x : String) : listed? (x ++ " = \x7b") = none :=
  listed?_concat (x.toList ++ [' ', '=', ' ']) (c := '\x7b') (by simp) (by decide) (by decide)

end Reading

open Reading

/-! ### Parts of the guide -/

/-- Whether an entry is told from other lines. -/
def GuideEntry.IsReadable : GuideEntry → Prop
  | constant k  => IsListed k.name.toList
  | struct name => ∃ x, name = x ++ "_t"

/-- What is listed for a block. -/
def BlockGuide.entries (b : BlockGuide) : List GuideEntry :=
  [.struct b.struct, .constant b.constant]

lemma BlockGuide.filterMap_listed?_stageLines {b : BlockGuide}
    (h : ∀ x ∈ b.entries, x.IsReadable) : b.stageLines.filterMap listed? = b.entries := by
  simp only [entries, List.forall_mem_cons] at h
  obtain ⟨⟨x, hx⟩, hconstant, -⟩ := h
  have htitle : listed? s!"                Uniform block '{b.name}':" = none := listed?_title _
  have hstruct : listed? s!"                    C struct: {b.struct}" =
      some (.struct b.struct) := by
    rw [hx]
    exact listed?_struct x
  rw [stageLines, List.filterMap_cons_none htitle, List.filterMap_cons_some hstruct,
    List.filterMap_cons_some (listed?_slot hconstant), List.filterMap_nil, entries]

lemma BlockGuide.listed?_usageLines (b : BlockGuide) : ∀ l ∈ b.usageLines, listed? l = none := by
  have hlines : ∀ l ∈ b.uniforms.map (fun u => s!"            .{u} = ...;"), listed? l = none := by
    simp only [List.forall_mem_map]
    intro u _
    exact listed?_of_start (.append (.append (.of_chars rfl) _) _)
  simp only [usageLines, List.forall_mem_append, List.forall_mem_cons]
  refine ⟨⟨⟨listed?_title _, listed?_empty, listed?_initialiser _, by simp⟩, hlines⟩,
    listed?_of_start (.of_chars rfl), ?_, listed?_empty, by simp⟩
  exact listed?_of_start (.append (.of_chars rfl) _)

lemma ImageGuide.filterMap_listed?_stageLines {m : ImageGuide}
    (h : GuideEntry.IsReadable (.constant m.constant)) :
    m.stageLines.filterMap listed? = [.constant m.constant] := by
  have htitle : listed? s!"                Image '{m.name}':" = none := listed?_title _
  have htype : listed? s!"                    Type: {m.type.constant}" = none :=
    listed?_of_start (.append (.of_chars rfl) _)
  rw [stageLines, List.filterMap_cons_none htitle, List.filterMap_cons_none htype,
    List.filterMap_cons_some (listed?_slot h), List.filterMap_nil]

/-- What is listed for a stage. -/
def StageGuide.entries (s : StageGuide) : List GuideEntry :=
  s.blocks.flatMap BlockGuide.entries ++ s.images.map fun m => .constant m.constant

lemma StageGuide.filterMap_listed?_lines {s : StageGuide} (h : ∀ x ∈ s.entries, x.IsReadable) :
    s.lines.filterMap listed? = s.entries := by
  simp only [entries, List.forall_mem_append, List.forall_mem_flatMap, List.forall_mem_map] at h
  rw [lines, List.filterMap_append, List.filterMap_flatMap, List.filterMap_flatMap,
    List.flatMap_congr fun b hb => BlockGuide.filterMap_listed?_stageLines (h.1 b hb),
    List.flatMap_congr fun m hm => ImageGuide.filterMap_listed?_stageLines (h.2 m hm),
    ← List.map_eq_flatMap, entries]

/-- What is listed for a program. -/
def ProgramGuide.entries (p : ProgramGuide) : List GuideEntry :=
  p.locations.map .constant ++ p.vertex.entries ++ p.fragment.entries

/-- Constants that are listed one by one. -/
lemma filterMap_listed?_constants {ks : List Constant} {line : Constant → String}
    (h : ∀ k ∈ ks, listed? (line k) = some (.constant k)) :
    (ks.map line).filterMap listed? = ks.map .constant := by
  rw [List.filterMap_map, ← List.filterMap_eq_map']
  refine List.filterMap_congr fun k hk => ?_
  rw [Function.comp_apply, h k hk]

lemma ProgramGuide.filterMap_listed?_lines {p : ProgramGuide} (h : ∀ x ∈ p.entries, x.IsReadable) :
    p.lines.filterMap listed? = p.entries := by
  simp only [entries, List.forall_mem_append, List.forall_mem_map] at h
  obtain ⟨⟨hlocations, hvertex⟩, hfragment⟩ := h
  have hhead : ∀ l ∈ [s!"        Shader program '{p.name}':",
      s!"            Get shader desc: {p.accessor}()",
      s!"            Vertex shader: {p.vertex.snippet}",
      "                Attribute slots:"], listed? l = none := by
    simp only [List.forall_mem_cons]
    refine ⟨listed?_title _, ?_, ?_, ?_, by simp⟩
    · exact listed?_of_start (.append (.append (.of_chars rfl) _) _)
    · exact listed?_of_start (.append (.of_chars rfl) _)
    · exact listed?_concat "                Attribute slots".toList (c := ':') (by simp)
        (by decide) (by decide)
  have hfragment' : listed? s!"            Fragment shader: {p.fragment.snippet}" = none :=
    listed?_of_start (.append (.of_chars rfl) _)
  rw [lines]
  simp only [List.filterMap_append, List.filterMap_eq_nil_iff.mpr hhead,
    filterMap_listed?_constants fun k hk => listed?_location (hlocations k hk),
    StageGuide.filterMap_listed?_lines hvertex, StageGuide.filterMap_listed?_lines hfragment,
    List.filterMap_cons, hfragment', listed?_empty, List.filterMap_nil, List.nil_append,
    List.append_nil, entries]

lemma ProgramGuide.listed?_usageLine (p : ProgramGuide) : listed? p.usageLine = none :=
  listed?_of_start (.append (.append (.append (.append (.of_chars rfl) _) _) _) _)

lemma VertexInputs.listed?_usageLines (v : VertexInputs) :
    ∀ l ∈ v.usageLines, listed? l = none := by
  have hlines : ∀ l ∈ v.locations.map
      (fun c => s!"                    [{c.name}] = \x7b ... \x7d,"), listed? l = none := by
    simp only [List.forall_mem_map]
    intro c _
    exact listed?_of_start (.append (.append (.of_chars rfl) _) _)
  simp only [usageLines, List.forall_mem_append, List.forall_mem_cons]
  refine ⟨⟨⟨listed?_title _, listed?_empty, ?_, ?_, ?_, by simp⟩, hlines⟩, ?_, ?_, ?_,
    listed?_empty, by simp⟩
  all_goals exact listed?_of_start (.of_chars rfl)

/-! ### The guide -/

namespace Guide

/-- What the guide lists: for each program, and the images of all of them. -/
def entries (g : Guide) : List GuideEntry :=
  g.programs.flatMap ProgramGuide.entries ++ g.images.map .constant

lemma filterMap_listed?_lines {g : Guide} (h : ∀ x ∈ g.entries, x.IsReadable) :
    g.lines.filterMap listed? = g.entries := by
  simp only [entries, List.forall_mem_append, List.forall_mem_flatMap, List.forall_mem_map] at h
  obtain ⟨hprograms, himages⟩ := h
  -- the head of the comment
  have hstart : ∀ l ∈ ["/*",
      s!"    #version:{g.version}# (machine generated, don't edit!)",
      "",
      "    Generated by sokol-shdc (https://github.com/floooh/sokol-tools)",
      "",
      "    Overview:",
      ""], listed? l = none := by
    simp only [List.forall_mem_cons]
    refine ⟨listed?_of_start (.of_chars rfl), ?_, listed?_empty,
      listed?_of_start (.of_chars rfl), listed?_empty,
      listed?_of_start (.of_chars rfl), listed?_empty, by simp⟩
    exact listed?_of_start (.append (.append (.of_chars rfl) _) _)
  -- how descriptors are initialised: the title is told by its colon
  have hdescriptors : ∀ l ∈ ["", "    Shader descriptor structs:", ""], listed? l = none := by
    simp only [List.forall_mem_cons]
    refine ⟨listed?_empty, ?_, listed?_empty, by simp⟩
    exact listed?_concat "    Shader descriptor structs".toList (c := ':') (by simp)
      (by decide) (by decide)
  -- names of programs and inputs appear in usage lines too, but not as entries
  have husage : ∀ l ∈ g.programs.map ProgramGuide.usageLine, listed? l = none :=
    List.forall_mem_map.mpr fun p _ => p.listed?_usageLine
  have hinputs : ∀ l ∈ g.inputs.flatMap VertexInputs.usageLines, listed? l = none :=
    List.forall_mem_flatMap.mpr fun v _ => v.listed?_usageLines
  -- the title of the image slots; the slots below it are entries
  have hslots : ∀ l ∈
      ["    Image bind slots, use as index in sg_bindings.vs_images[] or .fs_images[]", ""],
      listed? l = none := by
    simp only [List.forall_mem_cons]
    exact ⟨listed?_of_start (.of_chars rfl), listed?_empty, by simp⟩
  have hblocks : ∀ l ∈ g.blocks.flatMap BlockGuide.usageLines, listed? l = none :=
    List.forall_mem_flatMap.mpr fun b _ => b.listed?_usageLines
  -- what stands behind the last block
  have hend : ∀ l ∈ ["*/", "#include <stdint.h>", "#include <stdbool.h>"], listed? l = none := by
    simp only [List.forall_mem_cons]
    refine ⟨?_, ?_, ?_, by simp⟩
    all_goals exact listed?_of_start (.of_chars rfl)
  -- only programs and images are left
  rw [lines]
  simp only [List.filterMap_append, List.filterMap_eq_nil_iff.mpr hstart,
    List.filterMap_eq_nil_iff.mpr hdescriptors, List.filterMap_eq_nil_iff.mpr husage,
    List.filterMap_eq_nil_iff.mpr hinputs, List.filterMap_eq_nil_iff.mpr hslots,
    List.filterMap_eq_nil_iff.mpr hblocks, List.filterMap_eq_nil_iff.mpr hend,
    List.filterMap_flatMap,
    List.flatMap_congr fun p hp => ProgramGuide.filterMap_listed?_lines (hprograms p hp),
    filterMap_listed?_constants fun k hk => listed?_image (himages k hk),
    List.filterMap_cons_none listed?_empty, List.filterMap_nil, List.nil_append, List.append_nil,
    entries]

end Guide

end ShaderHeader
