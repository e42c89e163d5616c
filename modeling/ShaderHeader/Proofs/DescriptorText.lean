import ShaderHeader.Proofs.DescriptorTables
import ShaderHeader.Proofs.Reading.Reader
import ShaderHeader.Text.Draft

/-!
# Descriptors in C

The text of a descriptor is read back. First it is scanned as far as each table goes, without
knowing how many entries there have to be. Then the tables are checked for their sizes, and blocks
for the shape that they are written in. Nothing but the text is used, so it has all that the
descriptor has.
-/

namespace ShaderHeader

open Reading

/-! ### Scans -/

/-- A block as it is found: its size, and the name and the count of each of its uniforms. -/
structure BlockScan where
  size : Nat
  uniforms : List (Option (String × Nat))
  deriving DecidableEq

/-- A stage as it is found. -/
structure StageScan where
  stage : Stage
  code : StageCode
  entry : String
  blocks : List BlockScan
  images : List (Option ImageEntry)
  deriving DecidableEq

/-- A descriptor as it is found. -/
structure DescriptorScan where
  name : String
  attributes : List (Option AttributeEntry)
  vertex : StageScan
  fragment : StageScan
  label : String
  deriving DecidableEq

/-- The scan of the stage of a kind. -/
def DescriptorScan.stage (s : DescriptorScan) : Stage → StageScan
  | .vertex   => s.vertex
  | .fragment => s.fragment

namespace Scan

/-- Takes the rest of a line in front of an ending. -/
def lineBefore (ending : String) : Reader String := do
  let line ← upTo '\n'
  (before? ending.toList line.toList).map String.ofList

/-- Takes an attribute that is in use. -/
def input : Reader AttributeEntry := do
  expect "\x7b\""
  let name ← upTo '"'
  expect ",\""
  let semantic ← upTo '"'
  expect ","
  let index ← numberTo '\x7d'
  expect ","
  return ⟨name, semantic, index⟩

/-- Takes a uniform that is in use, with its count of vectors. -/
def uniform : Reader (String × Nat) := do
  expect "\x7b\""
  let name ← upTo '"'
  expect ",SG_UNIFORMTYPE_FLOAT4,"
  let count ← numberTo '\x7d'
  expect ","
  return (name, count)

def block : Reader BlockScan := do
  expect "      \x7b\n        "
  let size ← numberTo ','
  expect " /* size */\n        \x7b /* uniforms */"
  let uniforms ← allBefore " \x7d,\n" (orNothing "\x7b0,SG_UNIFORMTYPE_INVALID,0\x7d," uniform)
  expect "      \x7d,\n"
  return ⟨size, uniforms⟩

/-- The image type with a constant. -/
def imageType? (constant : String) : Option ImageType :=
  [.flat, .cube, .volume, .array].find? fun type => type.constant = constant

/-- Takes an image that is in use. -/
def image : Reader ImageEntry := do
  expect "\x7b\""
  let name ← upTo '"'
  expect ","
  let constant ← upTo '\x7d'
  let type ← imageType? constant
  expect ","
  return ⟨name, type⟩

/-- Takes what follows the line for the source text of a stage. Whether there is bytecode is seen
from the second line, in which 0 is written in another way than an array. -/
def codeAfter (source second : String) : Reader StageCode :=
  match before? ", /* bytecode */".toList second.toList with
  | none       => do
    expect "    0,  /* bytecode_size */\n"
    return .source source
  | some array => do
    expect "    "
    let size ← numberTo ','
    expect " /* bytecode_size */\n"
    return .bytecode (.ofList array) size

def code : Reader StageCode := do
  expect "    "
  let source ← lineBefore ", /* source */"
  expect "    "
  let second ← upTo '\n'
  codeAfter source second

/-- The stage with a short name. -/
def stage? (abbreviation : String) : Option Stage :=
  [.vertex, .fragment].find? fun stage => stage.abbreviation = abbreviation

def stage : Reader StageScan := do
  expect "  \x7b /* "
  let abbreviation ← upTo ' '
  let stage ← stage? abbreviation
  expect "*/\n"
  let code ← code
  expect "    \""
  let entry ← upTo '"'
  expect ", /* entry */\n    \x7b /* uniform blocks */\n"
  let blocks ← allBefore "    \x7d,\n" block
  expect "    \x7b /* images */ "
  let images ← allBefore " \x7d,\n" (orNothing "\x7b0,_SG_IMAGETYPE_DEFAULT\x7d," image)
  expect "  \x7d,\n"
  return ⟨stage, code, entry, blocks, images⟩

def descriptor : Reader DescriptorScan := do
  expect "static const sg_shader_desc "
  let name ← lineBefore " = \x7b"
  expect "  0, /* _start_canary */\n  \x7b /*attrs*/"
  let attributes ← allBefore " \x7d,\n" (orNothing "\x7b0,0,0\x7d," input)
  let vertex ← stage
  let fragment ← stage
  expect "  \""
  let label ← upTo '"'
  expect ", /* label */\n  0, /* _end_canary */\n\x7d;\n"
  return ⟨name, attributes, vertex, fragment, label⟩

end Scan

/-- Scans a text that is a descriptor and nothing else. -/
def DescriptorScan.ofText? (text : String) : Option DescriptorScan :=
  match Scan.descriptor.run text.toList with
  | some (s, []) => some s
  | _            => none

/-! ### Scans of what is written -/

namespace Scan

lemma takes_lineBefore {x ending : String} (h : '\n' ∉ (x ++ ending).toList) :
    Takes (lineBefore ending) (x ++ ending ++ "\n") x := by
  have hline : (before? ending.toList (x ++ ending).toList).map String.ofList = some x := by
    simp
  have hread : Takes (lineBefore ending) (x ++ ending ++ "\n" ++ "") x :=
    (Takes.upTo h).bind (Takes.lift hline)
  rwa [String.append_empty] at hread

lemma takes_input {a : AttributeEntry} (hname : IsQuotable a.name)
    (hsemantic : IsQuotable a.semantic) : Takes input (attributeText (some a)) a := by
  have htakes : Takes input _ a :=
    (Takes.expect _).bind <| (Takes.upTo hname.notMem_quote).bind <|
    (Takes.expect _).bind <| (Takes.upTo hsemantic.notMem_quote).bind <|
    (Takes.expect _).bind <| (Takes.numberTo rfl a.semanticIndex).bind <|
    (Takes.expect _).bind <| Takes.pure a
  refine htakes.of_eq ?_
  simp [attributeText, ← String.toList_inj]

lemma takes_uniform {name : String} (hname : IsQuotable name) (count : Nat) :
    Takes uniform s!"\x7b\"{name}\",SG_UNIFORMTYPE_FLOAT4,{count}\x7d," (name, count) := by
  have htakes : Takes uniform _ (name, count) :=
    (Takes.expect _).bind <| (Takes.upTo hname.notMem_quote).bind <|
    (Takes.expect _).bind <| (Takes.numberTo rfl count).bind <|
    (Takes.expect _).bind <| Takes.pure (name, count)
  refine htakes.of_eq ?_
  simp [← String.toList_inj]

lemma takes_image {m : ImageEntry} (hname : IsQuotable m.name) :
    Takes image (imageText (some m)) m := by
  have htype : '\x7d' ∉ m.type.constant.toList ∧ imageType? m.type.constant = some m.type := by
    cases m.type <;> decide
  have htakes : Takes image _ m :=
    (Takes.expect _).bind <| (Takes.upTo hname.notMem_quote).bind <|
    (Takes.expect _).bind <| (Takes.upTo htype.1).bind <|
    (Takes.lift htype.2).bind <| (Takes.expect _).bind <| Takes.pure m
  refine htakes.of_eq ?_
  simp [imageText, ← String.toList_inj]

end Scan

/-- The name of the array does not end the line that it is in. -/
def StageCode.IsPlain : StageCode → Prop
  | .source array     => IsQuotable array
  | .bytecode array _ => IsQuotable array

instance : DecidablePred StageCode.IsPlain
  | .source array     => inferInstanceAs (Decidable (IsQuotable array))
  | .bytecode array _ => inferInstanceAs (Decidable (IsQuotable array))

namespace Scan

/-- The second line is not that of an array if there is no bytecode. -/
lemma takes_codeAfter_source (source : String) :
    Takes (codeAfter source "0,  /* bytecode */") "    0,  /* bytecode_size */\n"
      (.source source) :=
  ((Takes.expect _).bind (Takes.pure (StageCode.source source))).of_eq (String.append_empty)

lemma takes_codeAfter_bytecode (source array : String) (size : Nat) :
    Takes (codeAfter source (array ++ ", /* bytecode */")) s!"    {size}, /* bytecode_size */\n"
      (.bytecode array size) := by
  rw [codeAfter, String.toList_append, before?_append]
  simp only [String.ofList_toList]
  refine Takes.of_eq ((Takes.expect _).bind <| (Takes.numberTo rfl size).bind <|
    (Takes.expect _).bind <| Takes.pure _) ?_
  simp [← String.toList_inj]

lemma takes_code {c : StageCode} (h : c.IsPlain) : Takes code (joinLines c.lines) c := by
  cases c with
  -- source text: the line has the array in it, and no newline
  | source array =>
    have hfirst : '\n' ∉ (array ++ ", /* source */").toList := by
      simp [IsQuotable.notMem_newline h]
    have htakes : Takes code _ (.source array) :=
      (Takes.expect _).bind <| (takes_lineBefore hfirst).bind <|
      (Takes.expect _).bind <| (Takes.upTo (by decide)).bind <| takes_codeAfter_source array
    refine htakes.of_eq ?_
    simp [StageCode.lines, ← String.toList_inj]
  -- bytecode: no source text, the array in the second line
  | bytecode array size =>
    have hsecond : '\n' ∉ (array ++ ", /* bytecode */").toList := by
      simp [IsQuotable.notMem_newline h]
    have htakes : Takes code _ (.bytecode array size) :=
      (Takes.expect _).bind <| (takes_lineBefore (x := "0") (by decide)).bind <|
      (Takes.expect _).bind <| (Takes.upTo hsecond).bind <| takes_codeAfter_bytecode "0" array size
    refine htakes.of_eq ?_
    simp [StageCode.lines, ← String.toList_inj]

end Scan

/-! ### What is written -/

/-- The scan of a block, or of a slot without one: of the uniforms only the first one is in use. -/
def BlockScan.of : Option BlockEntry → BlockScan
  | some b => ⟨b.size, some (b.name, b.size / 16) :: List.replicate 15 none⟩
  | none   => ⟨0, List.replicate 16 none⟩

/-- The scan of a stage. -/
def StageDescriptor.scan (s : StageDescriptor) : StageScan :=
  ⟨s.stage, s.code, s.entry, s.blocks.toList.map BlockScan.of, s.images.toList⟩

/-- The scan of a descriptor. -/
def Descriptor.scan (d : Descriptor) : DescriptorScan :=
  ⟨d.name, d.attributes.toList, d.vertex.scan, d.fragment.scan, d.label⟩

/-- A stage whose names do not end the lines or literals that they are in. -/
structure StageDescriptor.IsPlain (s : StageDescriptor) : Prop where
  code : s.code.IsPlain
  entry : IsQuotable s.entry
  blocks : ∀ entry ∈ s.blocks.toList, ∀ b ∈ entry, IsQuotable b.name
  images : ∀ entry ∈ s.images.toList, ∀ m ∈ entry, IsQuotable m.name

instance (s : StageDescriptor) : Decidable s.IsPlain :=
  decidable_of_iff (s.code.IsPlain ∧ IsQuotable s.entry ∧
      (∀ entry ∈ s.blocks.toList, ∀ b ∈ entry, IsQuotable b.name) ∧
      ∀ entry ∈ s.images.toList, ∀ m ∈ entry, IsQuotable m.name)
    ⟨fun ⟨hcode, hentry, hblocks, himages⟩ => ⟨hcode, hentry, hblocks, himages⟩,
      fun ⟨hcode, hentry, hblocks, himages⟩ => ⟨hcode, hentry, hblocks, himages⟩⟩

/-- A descriptor whose names do not end the lines or literals that they are in. -/
structure Descriptor.IsPlain (d : Descriptor) : Prop where
  name : IsQuotable d.name
  attributes : ∀ entry ∈ d.attributes.toList, ∀ a ∈ entry,
    IsQuotable a.name ∧ IsQuotable a.semantic
  vertex : d.vertex.IsPlain
  fragment : d.fragment.IsPlain
  label : IsQuotable d.label

instance (d : Descriptor) : Decidable d.IsPlain :=
  decidable_of_iff (IsQuotable d.name ∧
      (∀ entry ∈ d.attributes.toList, ∀ a ∈ entry, IsQuotable a.name ∧ IsQuotable a.semantic) ∧
      d.vertex.IsPlain ∧ d.fragment.IsPlain ∧ IsQuotable d.label)
    ⟨fun ⟨hname, hattributes, hvertex, hfragment, hlabel⟩ =>
        ⟨hname, hattributes, hvertex, hfragment, hlabel⟩,
      fun ⟨hname, hattributes, hvertex, hfragment, hlabel⟩ =>
        ⟨hname, hattributes, hvertex, hfragment, hlabel⟩⟩

namespace Scan

/-- A table whose entries are texts one after the other, with a sentinel where nothing is. -/
lemma takes_table {α : Type} {item : Reader α} {sentinel ending : String}
    {text : Option α → String} {entries : List (Option α)} (hnone : text none = sentinel)
    (hsome : ∀ entry ∈ entries, ∀ a ∈ entry, Takes item (text (some a)) a ∧
      Apart sentinel (text (some a)) ∧ Apart ending (text (some a)))
    (hending : Apart ending sentinel) :
    Takes (allBefore ending (orNothing sentinel item)) (String.join (entries.map text) ++ ending)
      entries := by
  have hentries : ∀ entry ∈ entries,
      Takes (orNothing sentinel item) (text entry) (id entry) ∧ Apart ending (text entry) := by
    rintro (_ | a) ha
    · exact ⟨hnone ▸ Takes.nothing sentinel item, hnone ▸ hending⟩
    · obtain ⟨hitem, hsentinel, hend⟩ := hsome (some a) ha a rfl
      exact ⟨hitem.something hsentinel, hend⟩
  have htakes := Takes.allBefore hentries
  rwa [List.map_id] at htakes

lemma takes_attributes {entries : List (Option AttributeEntry)}
    (h : ∀ entry ∈ entries, ∀ a ∈ entry, IsQuotable a.name ∧ IsQuotable a.semantic) :
    Takes (allBefore " \x7d,\n" (orNothing "\x7b0,0,0\x7d," input))
      (String.join (entries.map attributeText) ++ " \x7d,\n") entries := by
  refine takes_table rfl (fun entry hentry a ha => ?_) (by decide)
  obtain ⟨hname, hsemantic⟩ := h entry hentry a ha
  refine ⟨takes_input hname hsemantic, ?_, ?_⟩
  -- where the sentinel has 0, an entry has the quotation mark of its name
  · exact .of_getElem? (i := 1) rfl (by simp [attributeText]) (by decide : '0' ≠ '"')
  · exact .of_getElem? (i := 0) rfl (by simp [attributeText]) (by decide : ' ' ≠ '\x7b')

lemma takes_images {entries : List (Option ImageEntry)}
    (h : ∀ entry ∈ entries, ∀ m ∈ entry, IsQuotable m.name) :
    Takes (allBefore " \x7d,\n" (orNothing "\x7b0,_SG_IMAGETYPE_DEFAULT\x7d," image))
      (String.join (entries.map imageText) ++ " \x7d,\n") entries := by
  refine takes_table rfl (fun entry hentry m hm => ?_) (by decide)
  refine ⟨takes_image (h entry hentry m hm), ?_, ?_⟩
  · exact .of_getElem? (i := 1) rfl (by simp [imageText]) (by decide : '0' ≠ '"')
  · exact .of_getElem? (i := 0) rfl (by simp [imageText]) (by decide : ' ' ≠ '\x7b')

/-- A uniform in C. -/
def uniformText : Option (String × Nat) → String
  | some (name, count) => s!"\x7b\"{name}\",SG_UNIFORMTYPE_FLOAT4,{count}\x7d,"
  | none               => "\x7b0,SG_UNIFORMTYPE_INVALID,0\x7d,"

lemma map_uniformText (b : Option BlockEntry) :
    (BlockScan.of b).uniforms.map uniformText = uniformTexts b := by
  cases b with
  | none   => rfl
  | some b => rfl

lemma takes_uniforms {b : Option BlockEntry} (h : ∀ entry ∈ b, IsQuotable entry.name) :
    Takes (allBefore " \x7d,\n" (orNothing "\x7b0,SG_UNIFORMTYPE_INVALID,0\x7d," uniform))
      (String.join (uniformTexts b) ++ " \x7d,\n") (BlockScan.of b).uniforms := by
  have hquotable : ∀ u, some u ∈ (BlockScan.of b).uniforms → IsQuotable u.1 := by
    intro u hu
    cases b with
    | none => simp [BlockScan.of] at hu
    | some entry =>
      obtain rfl : u = (entry.name, entry.size / 16) := by simpa [BlockScan.of] using hu
      exact h entry rfl
  rw [← map_uniformText]
  refine takes_table rfl ?_ (by decide)
  rintro _ hu u rfl
  refine ⟨takes_uniform (hquotable u hu) u.2, ?_, ?_⟩
  · exact .of_getElem? (i := 1) rfl (by simp [uniformText]) (by decide : '0' ≠ '"')
  · exact .of_getElem? (i := 0) rfl (by simp [uniformText]) (by decide : ' ' ≠ '\x7b')

lemma takes_block {b : Option BlockEntry} (h : ∀ entry ∈ b, IsQuotable entry.name) :
    Takes block (joinLines (blockLines b)) (.of b) := by
  have hsize : (b.map BlockEntry.size).getD 0 = (BlockScan.of b).size := by cases b <;> rfl
  have htakes : Takes block _ (.of b) :=
    (Takes.expect _).bind <| (Takes.numberTo rfl (BlockScan.of b).size).bind <|
    (Takes.expect _).bind <| (takes_uniforms h).bind <| (Takes.expect _).bind <|
    Takes.pure (BlockScan.of b)
  refine htakes.of_eq ?_
  simp [blockLines, hsize, ← String.toList_inj]

lemma takes_blocks {entries : List (Option BlockEntry)}
    (h : ∀ entry ∈ entries, ∀ b ∈ entry, IsQuotable b.name) :
    Takes (allBefore "    \x7d,\n" block)
      (joinLines (entries.flatMap blockLines) ++ "    \x7d,\n") (entries.map BlockScan.of) := by
  have hlines : joinLines (entries.flatMap blockLines) =
      String.join (entries.map fun b => joinLines (blockLines b)) := by
    clear h
    induction entries with
    | nil => rfl
    | cons b entries ih => simp [ih]
  rw [hlines]
  -- a block is indented deeper than the ending
  refine Takes.allBefore fun entry hentry => ⟨takes_block (h entry hentry), ?_⟩
  exact .of_getElem? (i := 4) rfl (by simp [blockLines]) (by decide : '\x7d' ≠ ' ')

lemma takes_stage {s : StageDescriptor} (h : s.IsPlain) :
    Takes stage (joinLines s.lines) s.scan := by
  have hstage : ' ' ∉ s.stage.abbreviation.toList ∧
      stage? s.stage.abbreviation = some s.stage := by
    cases s.stage <;> decide
  have htakes : Takes stage _ s.scan :=
    (Takes.expect _).bind <| (Takes.upTo hstage.1).bind <| (Takes.lift hstage.2).bind <|
    (Takes.expect _).bind <| (takes_code h.code).bind <|
    (Takes.expect _).bind <| (Takes.upTo h.entry.notMem_quote).bind <|
    (Takes.expect _).bind <| (takes_blocks h.blocks).bind <|
    (Takes.expect _).bind <| (takes_images h.images).bind <|
    (Takes.expect _).bind <| Takes.pure s.scan
  refine htakes.of_eq ?_
  simp [StageDescriptor.lines, ← String.toList_inj]

lemma takes_descriptor {d : Descriptor} (h : d.IsPlain) :
    Takes descriptor (joinLines d.lines) d.scan := by
  have hfirst : '\n' ∉ (d.name ++ " = \x7b").toList := by
    simp [h.name.notMem_newline]
  have htakes : Takes descriptor _ d.scan :=
    (Takes.expect _).bind <| (takes_lineBefore hfirst).bind <|
    (Takes.expect _).bind <| (takes_attributes h.attributes).bind <|
    (takes_stage h.vertex).bind <| (takes_stage h.fragment).bind <|
    (Takes.expect _).bind <| (Takes.upTo h.label.notMem_quote).bind <|
    (Takes.expect _).bind <| Takes.pure d.scan
  refine htakes.of_eq ?_
  simp [Descriptor.lines, ← String.toList_inj]

end Scan

/-- What is written is scanned as a whole. -/
lemma DescriptorScan.ofText?_joinLines {d : Descriptor} (h : d.IsPlain) :
    DescriptorScan.ofText? (joinLines d.lines) = some d.scan := by
  have hrun := Scan.takes_descriptor h []
  rw [List.append_nil] at hrun
  rw [ofText?, hrun]

/-! ### Descriptors from scans -/

/-- A table of a size from as many entries. -/
def table? {α : Type} (n : Nat) (entries : List α) : Option (Vector α n) :=
  if h : entries.length = n then some ⟨entries.toArray, h⟩ else none

lemma table?_toList {α : Type} {n : Nat} (v : Vector α n) : table? n v.toList = some v := by
  rw [table?, dif_pos v.length_toList]
  rfl

namespace BlockScan

/-- A block is in use if its first uniform is, which then has as many vectors as the block. -/
def block? (b : BlockScan) : Option (Option BlockEntry) :=
  match b.uniforms with
  | some (name, count) :: rest =>
    if b.size = 16 * count ∧ rest = List.replicate 15 none then some (some ⟨name, b.size⟩) else none
  | uniforms                   =>
    if b.size = 0 ∧ uniforms = List.replicate 16 none then some none else none

lemma block?_of {b : Option BlockEntry} (h : ∀ entry ∈ b, 16 ∣ entry.size) :
    (BlockScan.of b).block? = some b := by
  cases b with
  | none => rfl
  | some entry =>
    have hsize : entry.size = 16 * (entry.size / 16) := (Nat.mul_div_cancel' (h entry rfl)).symm
    exact if_pos ⟨hsize, rfl⟩

lemma mapM_block?_of {entries : List (Option BlockEntry)}
    (h : ∀ entry ∈ entries, ∀ b ∈ entry, 16 ∣ b.size) :
    (entries.map BlockScan.of).mapM block? = some entries := by
  induction entries with
  | nil => rfl
  | cons entry entries ih =>
    obtain ⟨hentry, hrest⟩ := List.forall_mem_cons.mp h
    simp [block?_of hentry, ih hrest]

end BlockScan

/-- The stage that has been scanned, if its tables have the sizes of the runtime's. -/
def StageScan.descriptor? (s : StageScan) : Option StageDescriptor := do
  let blocks ← table? _ (← s.blocks.mapM BlockScan.block?)
  let images ← table? _ s.images
  return ⟨s.stage, s.code, s.entry, blocks, images⟩

lemma StageScan.descriptor?_scan {s : StageDescriptor}
    (h : ∀ entry ∈ s.blocks.toList, ∀ b ∈ entry, 16 ∣ b.size) : s.scan.descriptor? = some s := by
  simp [descriptor?, StageDescriptor.scan, BlockScan.mapM_block?_of h, table?_toList]

namespace Descriptor

/-- Reads a descriptor back from its text. -/
def ofText? (text : String) : Option Descriptor := do
  let s ← DescriptorScan.ofText? text
  let attributes ← table? _ s.attributes
  let vertex ← s.vertex.descriptor?
  let fragment ← s.fragment.descriptor?
  return ⟨s.name, attributes, vertex, fragment, s.label⟩

/-- The sizes of all blocks are numbers of whole vectors. -/
def HasWholeBlocks (d : Descriptor) : Prop :=
  ∀ stage, ∀ entry ∈ (d.stage stage).blocks.toList, ∀ b ∈ entry, 16 ∣ b.size

lemma ofText?_joinLines {d : Descriptor} (h : d.IsPlain) (hblocks : d.HasWholeBlocks) :
    ofText? (joinLines d.lines) = some d := by
  have hvertex : d.vertex.scan.descriptor? = some d.vertex :=
    StageScan.descriptor?_scan (hblocks .vertex)
  have hfragment : d.fragment.scan.descriptor? = some d.fragment :=
    StageScan.descriptor?_scan (hblocks .fragment)
  simp [ofText?, DescriptorScan.ofText?_joinLines h, scan, table?_toList, hvertex, hfragment]

/-- Rounding makes sizes whole, so descriptors of linked programs have whole blocks. -/
lemma hasWholeBlocks_ofLinked (qualifier : String) (d : Dialect) (p : LinkedProgram) :
    (ofLinked qualifier d p).HasWholeBlocks := by
  intro stage entry hentry b hb
  rw [stage_ofLinked] at hentry
  obtain ⟨slot, hslot, rfl⟩ := Vector.mem_iff_getElem.mp (Vector.mem_toList_iff.mp hentry)
  simp only [StageDescriptor.ofLinked, Vector.getElem_ofFn, Option.mem_def,
    Option.bind_eq_some_iff, Block.entry?, Option.map_eq_some_iff] at hb
  obtain ⟨block, -, size, hsize, rfl⟩ := hb
  obtain ⟨-, rfl⟩ := Block.roundedSize?_eq_some_iff.mp hsize
  exact dvd_strideAbove block.size

end Descriptor

/-! ### The shape of the text -/

/-- A scan of a stage that has all positions of its tables, in their order, and in every block all
uniforms. -/
structure StageScan.Mirrors (s : StageScan) (d : StageDescriptor) : Prop where
  length_blocks : s.blocks.length = 4
  length_uniforms : ∀ b ∈ s.blocks, b.uniforms.length = 16
  length_images : s.images.length = 12
  block_eq : ∀ (slot : Nat) (h : slot < 4), s.blocks[slot]? = some (.of d.blocks[slot])
  image_eq : ∀ (slot : Nat) (h : slot < 12), s.images[slot]? = some d.images[slot]

/-- A scan that has all positions of the tables of a descriptor, in their order. -/
structure DescriptorScan.Mirrors (s : DescriptorScan) (d : Descriptor) : Prop where
  length_attributes : s.attributes.length = 16
  attribute_eq : ∀ (location : Nat) (h : location < 16),
    s.attributes[location]? = some d.attributes[location]
  stages : ∀ stage, (s.stage stage).Mirrors (d.stage stage)

lemma BlockScan.length_uniforms_of (b : Option BlockEntry) :
    (BlockScan.of b).uniforms.length = 16 := by
  cases b <;> rfl

lemma StageDescriptor.mirrors_scan (s : StageDescriptor) : s.scan.Mirrors s where
  length_blocks := by rw [scan, List.length_map, Vector.length_toList]; rfl
  length_uniforms := List.forall_mem_map.mpr fun entry _ => BlockScan.length_uniforms_of entry
  length_images := Vector.length_toList
  block_eq slot h := by
    have hslot : slot < ResourceKind.block.capacity := h
    rw [scan, List.getElem?_map, Vector.getElem?_toList, Vector.getElem?_eq_getElem hslot]
    rfl
  image_eq slot h := by
    have hslot : slot < ResourceKind.image.capacity := h
    rw [scan, Vector.getElem?_toList]
    exact Vector.getElem?_eq_getElem hslot

lemma Descriptor.mirrors_scan (d : Descriptor) : d.scan.Mirrors d where
  length_attributes := Vector.length_toList
  attribute_eq location h := by
    have hlocation : location < attributeCapacity := h
    rw [scan, Vector.getElem?_toList]
    exact Vector.getElem?_eq_getElem hlocation
  stages stage := by
    cases stage with
    | vertex   => exact d.vertex.mirrors_scan
    | fragment => exact d.fragment.mirrors_scan

/-- The text of a descriptor shows all positions of its tables, in their order, with a sentinel
exactly where nothing is. If the sizes of blocks are whole, as they are for linked programs, then
the descriptor is read back from the text. So no two descriptors have the same text. -/
theorem Descriptor.text_faithful :
    (∀ d : Descriptor, d.IsPlain →
      ∃ s, DescriptorScan.ofText? (joinLines d.lines) = some s ∧ s.Mirrors d) ∧
    (∀ d : Descriptor, d.IsPlain → d.HasWholeBlocks → ofText? (joinLines d.lines) = some d) ∧
    (∀ d e : Descriptor, d.IsPlain → d.HasWholeBlocks → e.IsPlain → e.HasWholeBlocks →
      joinLines d.lines = joinLines e.lines → d = e) ∧
    ∀ qualifier dialect p, (ofLinked qualifier dialect p).HasWholeBlocks := by
  refine ⟨fun d hd => ?_, fun d hd hblocks => ofText?_joinLines hd hblocks, ?_,
    hasWholeBlocks_ofLinked⟩
  · exact ⟨d.scan, DescriptorScan.ofText?_joinLines hd, d.mirrors_scan⟩
  · intro d e hd hdblocks he heblocks htext
    have hread := ofText?_joinLines hd hdblocks
    rw [htext, ofText?_joinLines he heblocks] at hread
    exact (Option.some.inj hread).symm

namespace Sample

/-- The descriptor of a small program with source text for one stage and bytecode for the other. -/
def mixed : Descriptor :=
  .ofLinked "" .hlsl5 { quad with
    fragment := { quad.fragment with blob := some ⟨1, [0xde, 0xad]⟩ } }

/-- The descriptor of the same program without bytecode. -/
def textOnly : Descriptor :=
  .ofLinked "" .hlsl5 quad

/-- Both are read back, so their texts differ. -/
theorem text_faithful_of_mixed :
    (∃ s, DescriptorScan.ofText? (joinLines mixed.lines) = some s ∧ s.Mirrors mixed) ∧
    Descriptor.ofText? (joinLines mixed.lines) = some mixed ∧
    joinLines mixed.lines ≠ joinLines textOnly.lines := by
  obtain ⟨hscan, hread, hinjective, hwhole⟩ := Descriptor.text_faithful
  have hmixed : mixed.IsPlain := by decide +kernel
  have htext : textOnly.IsPlain := by decide +kernel
  refine ⟨hscan mixed hmixed, hread mixed hmixed (hwhole _ _ _), fun heq => ?_⟩
  have hsame := hinjective mixed textOnly hmixed (hwhole _ _ _) htext (hwhole _ _ _) heq
  cases congrArg (fun d => d.fragment.code) hsame

end Sample

end ShaderHeader
