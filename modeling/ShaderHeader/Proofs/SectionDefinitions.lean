import Mathlib.Data.List.Forall2
import ShaderHeader.Proofs.Reading.Definition
import ShaderHeader.Proofs.SectionText

/-!
# Definitions of a section

What a section defines can be read from its lines, whatever the names in it are: first an array for
every piece of code, then a descriptor for every program. A descriptor refers to the array of a
stage either as source text or as bytecode.
-/

namespace ShaderHeader

open Reading

/-! ### Arrays -/

lemma bytes?_rowLine (row : List UInt8) :
    bytes? ((rowLine row).toList.dropWhile (· = ' ')) = some row := by
  have hliterals : bytes? (String.join (row.map byteLiteral)).toList = some row := by
    induction row with
    | nil => rfl
    | cons b bs ih =>
      rw [List.map_cons, String.join_cons, String.toList_append, bytes?_byteLiteral_append, ih]
      rfl
  cases row with
  | nil => rfl
  | cons b bs =>
    have hindent : (rowLine (b :: bs)).toList.dropWhile (· = ' ') =
        (String.join ((b :: bs).map byteLiteral)).toList := by
      simp [rowLine, byteLiteral]
    rw [hindent, hliterals]

lemma rowLine_ne (row : List UInt8) : rowLine row ≠ "\x7d;" := by
  cases row with
  | nil => decide
  | cons b bs => simp [rowLine, ← String.toList_inj]

lemma spells_byteTable {t : ByteTable} (h : t.elementType = "char" ∨ t.elementType = "uint8_t") :
    Spells t.lines [t.definition] := by
  have hrows : ∀ bss : List (List UInt8), List.Forall₂
      (fun row bs => row ≠ "\x7d;" ∧ bytes? (row.toList.dropWhile (· = ' ')) = some bs)
      (bss.map rowLine) bss := by
    intro bss
    rw [List.forall₂_map_left_iff, List.forall₂_same]
    exact fun bs _ => ⟨rowLine_ne bs, bytes?_rowLine bs⟩
  have harray := Spells.array (heading?_array h t.name t.bytes.length)
    (hrows (splitRows (t.bytes.length / rowLength) t.bytes))
  rwa [flatten_splitRows] at harray

/-! ### Code -/

/-- The text lines of a comment are indented, so none of them ends it. -/
lemma spells_embedding {e : Embedding}
    (h : e.table.elementType = "char" ∨ e.table.elementType = "uint8_t") :
    Spells e.lines [e.table.definition] := by
  have hcomment : Spells (commentLines e.text) [] := by
    refine .comment fun l hl => ?_
    obtain ⟨text, -, rfl⟩ := List.mem_map.mp hl
    simp [← String.toList_inj]
  exact hcomment.append (spells_byteTable h)

/-- The fields of a descriptor for the code of a stage. -/
def StageCode.fields : StageCode → CodeFields
  | source array        => ⟨some array, none, 0⟩
  | bytecode array size => ⟨none, some array, size⟩

/-- The same fields, line by line. -/
def StageCode.labels : StageCode → List (String × String)
  | source array        => [("source", array), ("bytecode", "0"), ("bytecode_size", "0")]
  | bytecode array size => [("source", "0"), ("bytecode", array), ("bytecode_size", size.repr)]

lemma codeFields?_labels {c : StageCode} (h : c.array ≠ "0") :
    codeFields? c.labels = some c.fields := by
  have hzero : number? "0" = some 0 := by decide
  have hreference : reference? c.array = some c.array := if_neg h
  cases c with
  | source array =>
    rw [StageCode.array] at hreference
    rw [StageCode.labels, codeFields?, hzero, hreference]
    rfl
  | bytecode array size =>
    rw [StageCode.array] at hreference
    rw [StageCode.labels, codeFields?, number?_repr, hreference]
    rfl

/-! ### Descriptors -/

/-- Some lines inside of a descriptor have these fields. -/
def HasFields (L : List String) (fs : List (String × String)) : Prop :=
  (∀ l ∈ L, l.toList.head? = some ' ') ∧ L.filterMap field? = fs

instance (L : List String) (fs : List (String × String)) : Decidable (HasFields L fs) :=
  inferInstanceAs (Decidable (_ ∧ _))

namespace HasFields

variable {L K : List String} {fs gs : List (String × String)}

lemma append (hL : HasFields L fs) (hK : HasFields K gs) : HasFields (L ++ K) (fs ++ gs) := by
  refine ⟨List.forall_mem_append.mpr ⟨hL.1, hK.1⟩, ?_⟩
  rw [List.filterMap_append, hL.2, hK.2]

lemma flatMap {α : Type} {text : α → List String} {as : List α}
    (h : ∀ a ∈ as, HasFields (text a) []) : HasFields (as.flatMap text) [] := by
  induction as with
  | nil => exact ⟨by simp, rfl⟩
  | cons a as ih =>
    obtain ⟨ha, has⟩ := List.forall_mem_cons.mp h
    exact ha.append (ih has)

/-- A line that does not end in a label of a field. -/
lemma other {line : String} (start ending : String) (hline : line = start ++ ending)
    (hstart : start.toList.head? = some ' ')
    (hending : ∀ label ∈ fieldLabels, ¬ ending.toList <:+ s!"/* {label} */".toList ∧
      ¬ s!"/* {label} */".toList <:+ ending.toList) : HasFields [line] [] := by
  have hsuffix : ending.toList <:+ line.toList := ⟨start.toList, by simp [hline]⟩
  refine ⟨by simp [hline, hstart], ?_⟩
  rw [List.filterMap_cons, field?_eq_none hsuffix hending]
  rfl

/-- The lines of a descriptor do not end it. -/
lemma ne_end (h : HasFields L fs) : ∀ l ∈ L, l ≠ "\x7d;" := by
  rintro l hl rfl
  cases h.1 _ hl

end HasFields

lemma hasFields_stageCode (c : StageCode) : HasFields c.lines c.labels := by
  cases c with
  | source array =>
    have harray : field? s!"    {array}, /* source */" = some ("source", array) :=
      field?_eq_some (by decide) (by simp [← String.toList_inj])
    have hbytecode : field? "    0,  /* bytecode */" = some ("bytecode", "0") := by decide
    have hsize : field? "    0,  /* bytecode_size */" = some ("bytecode_size", "0") := by decide
    refine ⟨by simp [StageCode.lines], ?_⟩
    simp only [StageCode.lines, StageCode.labels, List.filterMap_cons, harray, hbytecode, hsize,
      List.filterMap_nil]
  | bytecode array size =>
    have hsource : field? "    0, /* source */" = some ("source", "0") := by decide
    have harray : field? s!"    {array}, /* bytecode */" = some ("bytecode", array) :=
      field?_eq_some (by decide) (by simp [← String.toList_inj])
    have hsize : field? s!"    {size}, /* bytecode_size */" = some ("bytecode_size", size.repr) :=
      field?_eq_some (by decide) (by simp [← String.toList_inj])
    refine ⟨by simp [StageCode.lines], ?_⟩
    simp only [StageCode.lines, StageCode.labels, List.filterMap_cons, hsource, harray, hsize,
      List.filterMap_nil]

lemma hasFields_blockLines (b : Option BlockEntry) : HasFields (blockLines b) [] := by
  have hopen : HasFields ["      \x7b"] [] := by decide
  have hsize : HasFields [s!"        {(b.map BlockEntry.size).getD 0}, /* size */"] [] :=
    .other s!"        {(b.map BlockEntry.size).getD 0}, " "/* size */"
      (by simp [← String.toList_inj]) (by simp) (by decide)
  have huniforms : HasFields
      ["        \x7b /* uniforms */" ++ String.join (uniformTexts b) ++ " \x7d,"] [] :=
    .other _ " \x7d," rfl (by simp) (by decide)
  have hclose : HasFields ["      \x7d,"] [] := by decide
  exact hopen.append (hsize.append (huniforms.append hclose))

lemma hasFields_stageDescriptor (s : StageDescriptor) : HasFields s.lines s.code.labels := by
  have hopen : HasFields [s!"  \x7b /* {s.stage.abbreviation} */"] [] := by
    cases s.stage with
    | vertex   => decide
    | fragment => decide
  have hentry : HasFields [s!"    \"{s.entry}\", /* entry */"] [] :=
    .other s!"    \"{s.entry}\", " "/* entry */" (by simp [← String.toList_inj]) (by simp)
      (by decide)
  have hblocks : HasFields ["    \x7b /* uniform blocks */"] [] := by decide
  have himages : HasFields
      ["    \x7b /* images */ " ++ String.join (s.images.toList.map imageText) ++ " \x7d,"] [] :=
    .other _ " \x7d," rfl (by simp) (by decide)
  have hclose : HasFields ["    \x7d,"] [] := by decide
  have hend : HasFields ["  \x7d,"] [] := by decide
  have htables : HasFields (s.blocks.toList.flatMap blockLines) [] :=
    .flatMap fun b _ => hasFields_blockLines b
  have hlines : HasFields s.lines ([] ++ s.code.labels ++ ([] ++ []) ++ [] ++ ([] ++ ([] ++ []))) :=
    (((hopen.append (hasFields_stageCode s.code)).append (hentry.append hblocks)).append
      htables).append (hclose.append (himages.append hend))
  simpa only [List.nil_append, List.append_nil] using hlines

/-- The lines of a descriptor between the first one and the last one. -/
def Descriptor.body (d : Descriptor) : List String :=
  ["  0, /* _start_canary */",
    "  \x7b /*attrs*/" ++ String.join (d.attributes.toList.map attributeText) ++ " \x7d,"] ++
  d.vertex.lines ++ d.fragment.lines ++
  [s!"  \"{d.label}\", /* label */",
    "  0, /* _end_canary */"]

lemma hasFields_body (d : Descriptor) :
    HasFields d.body (d.vertex.code.labels ++ d.fragment.code.labels) := by
  have hstart : HasFields ["  0, /* _start_canary */"] [] := by decide
  have hattributes : HasFields
      ["  \x7b /*attrs*/" ++ String.join (d.attributes.toList.map attributeText) ++ " \x7d,"] [] :=
    .other _ " \x7d," rfl (by simp) (by decide)
  have hlabel : HasFields [s!"  \"{d.label}\", /* label */"] [] :=
    .other s!"  \"{d.label}\", " "/* label */" (by simp [← String.toList_inj]) (by simp) (by decide)
  have hend : HasFields ["  0, /* _end_canary */"] [] := by decide
  have hlines : HasFields d.body
      ([] ++ [] ++ d.vertex.code.labels ++ d.fragment.code.labels ++ ([] ++ [])) :=
    (((hstart.append hattributes).append (hasFields_stageDescriptor d.vertex)).append
      (hasFields_stageDescriptor d.fragment)).append (hlabel.append hend)
  simpa only [List.nil_append, List.append_nil] using hlines

/-- What a descriptor defines. -/
def Descriptor.definition (d : Descriptor) : Definition :=
  .descriptor d.name d.vertex.code.fields d.fragment.code.fields

lemma spells_descriptor {d : Descriptor} (hvertex : d.vertex.code.array ≠ "0")
    (hfragment : d.fragment.code.array ≠ "0") : Spells d.lines [d.definition] := by
  have hfields := hasFields_body d
  have hlines : d.lines =
      s!"static const sg_shader_desc {d.name} = \x7b" :: d.body ++ ["\x7d;"] := by
    simp [Descriptor.lines, Descriptor.body]
  have hread : descriptorOf? d.name (d.body.filterMap field?) = some d.definition := by
    have hlength : ∀ c : StageCode, c.labels.length = 3 := fun c => by cases c <;> rfl
    rw [hfields.2, descriptorOf?, List.take_left' (hlength _), List.drop_left' (hlength _),
      codeFields?_labels hvertex, codeFields?_labels hfragment]
    rfl
  exact hlines ▸ .descriptor (heading?_descriptor d.name) hfields.ne_end hread

/-! ### Sections -/

/-- A section defines its arrays and then its descriptors. -/
lemma spells_section {s : Section}
    (hcode : ∀ e ∈ s.code, e.table.elementType = "char" ∨ e.table.elementType = "uint8_t")
    (hdescriptors : ∀ d ∈ s.descriptors,
      d.vertex.code.array ≠ "0" ∧ d.fragment.code.array ≠ "0") :
    Spells s.lines (s.code.map (fun e => e.table.definition) ++
      s.descriptors.map Descriptor.definition) := by
  have hbody : Spells (s.code.flatMap Embedding.lines ++ s.descriptors.flatMap Descriptor.lines)
      (s.code.map (fun e => e.table.definition) ++ s.descriptors.map Descriptor.definition) :=
    (Spells.flatMap fun e he => spells_embedding (hcode e he)).append
      (Spells.flatMap fun d hd => spells_descriptor (hdescriptors d hd).1 (hdescriptors d hd).2)
  cases hguard : s.guard with
  | none => rwa [Section.lines, hguard]
  | some symbol =>
    have hif : Spells [s!"#if defined({symbol})"] [] := .directive (by simp)
    have hend : Spells [s!"#endif /* {symbol} */"] [] := .directive (by simp)
    rw [Section.lines, hguard]
    simpa [conditional] using (hif.append hbody).append hend

end ShaderHeader
