import ShaderHeader.Header.Section
import ShaderHeader.Proofs.Reading.Code
import ShaderHeader.Proofs.Reading.Comment

/-!
# The code of sections

Between its guards, a section is plain code: it has no directive and no function. What it defines
are the arrays of its stages and the descriptors of its programs. This is shown line by line, of a
section whose names are words and whose source texts stay inside of their comments.
-/

namespace ShaderHeader

open Reading

/-! ### Embedded code -/

lemma isWordChar_digitChar {n : Nat} (h : n < 16) : isWordChar (Nat.digitChar n) = true := by
  revert n
  decide

/-- The digits of a byte. -/
def byteDigits (b : UInt8) : String :=
  String.ofList ['0', 'x', Nat.digitChar (b.toNat / 16), Nat.digitChar (b.toNat % 16)]

lemma isWord_byteDigits (b : UInt8) : IsWord (byteDigits b) := by
  have hhigh := isWordChar_digitChar (n := b.toNat / 16) (by have := b.toNat_lt; omega)
  have hlow := isWordChar_digitChar (n := b.toNat % 16) (Nat.mod_lt _ (by decide))
  have hzero : isWordChar '0' = true := by decide
  have hx : isWordChar 'x' = true := by decide
  simp [IsWord, byteDigits, hhigh, hlow, hzero, hx]

/-- The tokens of a byte. -/
def byteTokens (b : UInt8) : List Token :=
  [.word (byteDigits b), .symbol ","]

lemma byteLiteral_eq (b : UInt8) : byteLiteral b = byteDigits b ++ "," := by
  simp [byteLiteral, byteDigits, ← String.toList_inj]

lemma segment_byteLiteral (b : UInt8) : Segment (byteLiteral b) (byteTokens b) := by
  have hword := isWord_byteDigits b
  have hne : byteDigits b ≠ "" := by simp [byteDigits]
  rw [byteLiteral_eq]
  refine ⟨?_, ?_⟩
  · simp [hword.plain]
  · simp [byteTokens, run_word hword, run, step, start, isWordChar, wordTokens_of_ne hne]

lemma segment_rowLine (row : List UInt8) : Segment (rowLine row) (row.flatMap byteTokens) := by
  cases row with
  | nil       => exact ⟨by decide, rfl⟩
  | cons b bs =>
    have hindent : Segment "    " [] := ⟨by decide, rfl⟩
    exact hindent.append (.join fun b _ => segment_byteLiteral b)

lemma bytes?_byteLiteral_append (b : UInt8) (cs : List Char) :
    bytes? ((byteLiteral b).toList ++ cs) = (bytes? cs).map (b :: ·) := by
  have hlt := b.toNat_lt
  have hvalue : UInt8.ofNat (16 * (b.toNat / 16) + b.toNat % 16) = b := by
    rw [Nat.div_add_mod, UInt8.ofNat_toNat]
  have hhigh := hexDigit?_digitChar (n := b.toNat / 16) (by omega)
  have hlow := hexDigit?_digitChar (n := b.toNat % 16) (by omega)
  rw [byteLiteral, String.toList_ofList]
  simp only [List.cons_append, List.nil_append, bytes?, hhigh, hlow, Option.bind_eq_bind,
    Option.bind_some, hvalue]
  cases bytes? cs <;> rfl

/-- The elements between the braces of an array are its bytes. -/
lemma elements?_flatMap (bytes : List UInt8) (rest : List Token) :
    elements? (bytes.flatMap byteTokens ++ Token.symbol "\x7d" :: rest) = some bytes := by
  induction bytes with
  | nil => rfl
  | cons b bytes ih =>
    have hbyte : bytes? ((byteDigits b).toList ++ [',']) = some [b] := by
      have h := bytes?_byteLiteral_append b []
      rwa [List.append_nil, byteLiteral_eq, String.toList_append] at h
    simp [byteTokens, elements?, hbyte, ih]

lemma static_notMem_byteTokens (bytes : List UInt8) :
    .word "static" ∉ bytes.flatMap byteTokens := by
  intro hmem
  obtain ⟨b, -, hb⟩ := List.mem_flatMap.mp hmem
  have hdigits : byteDigits b ≠ "static" := by simp [byteDigits, ← String.toList_inj]
  simp [byteTokens, hdigits.symm] at hb

lemma isCode_byteTokens (bytes : List UInt8) : IsCode (bytes.flatMap byteTokens) := by
  simp [IsCode, byteTokens]

namespace ByteTable

variable (t : ByteTable)

/-- The array that a table is written as. -/
def definition : Definition :=
  .array t.elementType t.name t.bytes.length t.bytes

/-- How the definition of an array starts, up to the brace that opens it. -/
def headTokens : List Token :=
  [.word "static", .word "const", .word t.elementType, .word t.name, .symbol "[",
    .word t.bytes.length.repr, .symbol "]", .symbol "=", .symbol "\x7b"]

/-- The lines of an array, as tokens. -/
def tokens : List (List Token) :=
  t.headTokens :: (splitRows (t.bytes.length / rowLength) t.bytes).map (·.flatMap byteTokens) ++
    [[.symbol "\x7d", .symbol ";"]]

variable {t}

lemma defines_tokens : Defines t.tokens.flatten [t.definition] [] := by
  have hrows : ∀ rows : List (List UInt8),
      (rows.map (·.flatMap byteTokens)).flatten = rows.flatten.flatMap byteTokens := by
    intro rows
    rw [← List.flatMap_def, ← List.flatMap_id, List.flatMap_assoc]
    rfl
  have harray : Defines (t.headTokens ++ t.bytes.flatMap byteTokens ++
      [.symbol "\x7d", .symbol ";"]) [t.definition] [] :=
    .array t.bytes.length (static_notMem_byteTokens t.bytes) (elements?_flatMap t.bytes)
  simpa [tokens, hrows] using harray

lemma reads_lines (htype : IsWord t.elementType) (htype' : t.elementType ≠ "")
    (hname : IsWord t.name) (hname' : t.name ≠ "") : Reads t.lines (t.tokens.map .code) := by
  have hhead : Reads [s!"static const {t.elementType} {t.name}[{t.bytes.length}] = \x7b"]
      [.code t.headTokens] := by
    have hlength := isWord_repr t.bytes.length
    refine .of_segment ⟨?_, ?_⟩ ⟨by simp [headTokens], by simp [headTokens]⟩
    · simp [htype.plain, hname.plain, hlength.plain, -Nat.toList_repr]
    · simp [headTokens, run_word htype, run_word hname, run_word hlength, run, step, start,
        isWordChar, wordTokens_of_ne htype', wordTokens_of_ne hname', -Nat.toList_repr]
  have hrows : ∀ rows : List (List UInt8),
      Reads (rows.map rowLine) ((rows.map (·.flatMap byteTokens)).map .code) := by
    intro rows
    induction rows with
    | nil => exact .nil
    | cons row rows ih =>
      exact (Reads.of_segment (segment_rowLine row) (isCode_byteTokens row)).append ih
  have hend : Reads ["\x7d;"] [.code [.symbol "\x7d", .symbol ";"]] := .of_chars rfl
  have hlines := hhead.append ((hrows (splitRows (t.bytes.length / rowLength) t.bytes)).append hend)
  simpa [tokens, lines] using hlines

end ByteTable

/-- The names in the code of a stage. -/
def Embedding.names (e : Embedding) : List String :=
  [e.table.elementType, e.table.name]

/-- The type and the name of an array are never empty. -/
lemma Embedding.ne_empty_of_mem_names {qualifier snippet : String} {d : Dialect} {s : Source}
    {b : Option Blob} {n : String} (hn : n ∈ (Embedding.ofSource qualifier d snippet s b).names) :
    n ≠ "" := by
  cases b with
  | none =>
    simp only [Embedding.names, Embedding.ofSource, ByteTable.ofText, List.mem_cons,
      List.not_mem_nil, or_false] at hn
    rcases hn with rfl | rfl
    · decide
    · simp [Naming.source]
  | some blob =>
    simp only [Embedding.names, Embedding.ofSource, ByteTable.ofBytecode, List.mem_cons,
      List.not_mem_nil, or_false] at hn
    rcases hn with rfl | rfl
    · decide
    · simp [Naming.bytecode]

/-- The code of a stage is in a comment and in an array. -/
lemma declares_embedding {e : Embedding} (htext : ¬ ['*', '/'] <:+: e.text.toList)
    (hwords : ∀ n ∈ e.names, IsWord n) (hne : ∀ n ∈ e.names, n ≠ "") :
    Declares e.lines [e.table.definition] [] := by
  have hcomment : Declares (commentLines e.text) [] [] :=
    ⟨[[]], reads_commentLines htext, .nil⟩
  simp only [Embedding.names, List.forall_mem_cons] at hwords hne
  have htable : Declares e.table.lines [e.table.definition] [] :=
    ⟨_, ByteTable.reads_lines hwords.1 hne.1 hwords.2.1 hne.2.1, ByteTable.defines_tokens⟩
  exact hcomment.append htable

/-! ### Tables of descriptors -/

/-- A literal that consists of a word. -/
lemma inert_quoted {w : String} (h : IsWord w) : Inert ("\"" ++ w ++ "\"") := by
  refine ⟨[.literal '"' w], ⟨?_, ?_⟩, ⟨by simp, by simp⟩, .of_notMem (by simp)⟩
  · simp [h.plain]
  · simp [run_literal h.isQuotable, run, step, start, isWordChar]

lemma inert_attributeText {a : Option AttributeEntry}
    (h : ∀ e ∈ a, IsWord e.name ∧ IsWord e.semantic) : Inert (attributeText a) := by
  cases a with
  | none   => exact .of_chars rfl
  | some a =>
    obtain ⟨hname, hsemantic⟩ := h a rfl
    have hopen : Inert "\x7b" := .of_chars rfl
    have hcomma : Inert "," := .of_chars rfl
    have hindex : Inert (a.semanticIndex.repr ++ "\x7d,") :=
      .word_append (isWord_repr _) (.of_chars rfl) (.inr rfl)
    have htext : attributeText (some a) =
        "\x7b" ++ ("\"" ++ a.name ++ "\"") ++ "," ++ ("\"" ++ a.semantic ++ "\"") ++ "," ++
          (a.semanticIndex.repr ++ "\x7d,") := by
      simp [attributeText, ← String.toList_inj]
    rw [htext]
    exact ((((hopen.append (inert_quoted hname)).append hcomma).append
      (inert_quoted hsemantic)).append hcomma).append hindex

lemma inert_uniformTexts {b : Option BlockEntry} (h : ∀ e ∈ b, IsWord e.name) :
    Inert (String.join (uniformTexts b)) := by
  have hrest : ∀ n,
      Inert (String.join (List.replicate n "\x7b0,SG_UNIFORMTYPE_INVALID,0\x7d,")) := by
    intro n
    have hempty : Inert "\x7b0,SG_UNIFORMTYPE_INVALID,0\x7d," := .of_chars rfl
    rw [← List.map_id (List.replicate n _)]
    exact .join fun x hx => List.eq_of_mem_replicate hx ▸ hempty
  cases b with
  | none   => exact hrest _
  | some b =>
    have hopen : Inert "\x7b" := .of_chars rfl
    have htype : Inert ",SG_UNIFORMTYPE_FLOAT4," := .of_chars rfl
    have hcount : Inert ((b.size / 16).repr ++ "\x7d,") :=
      .word_append (isWord_repr _) (.of_chars rfl) (.inr rfl)
    have hfirst : Inert s!"\x7b\"{b.name}\",SG_UNIFORMTYPE_FLOAT4,{b.size / 16}\x7d," := by
      have htext : s!"\x7b\"{b.name}\",SG_UNIFORMTYPE_FLOAT4,{b.size / 16}\x7d," =
          "\x7b" ++ ("\"" ++ b.name ++ "\"") ++ ",SG_UNIFORMTYPE_FLOAT4," ++
            ((b.size / 16).repr ++ "\x7d,") := by
        simp [← String.toList_inj]
      rw [htext]
      exact ((hopen.append (inert_quoted (h b rfl))).append htype).append hcount
    have hcons := hfirst.append (hrest (blockUniformCapacity - 1))
    rwa [← String.join_cons] at hcons

lemma inert_imageText {m : Option ImageEntry} (h : ∀ e ∈ m, IsWord e.name) :
    Inert (imageText m) := by
  cases m with
  | none   => exact .of_chars rfl
  | some m =>
    have hopen : Inert "\x7b" := .of_chars rfl
    have hcomma : Inert "," := .of_chars rfl
    have htype : Inert (m.type.constant ++ "\x7d,") := by
      refine .word_append ?_ (.of_chars rfl) (.inr rfl)
      cases m.type <;> exact .of_chars rfl
    have htext : imageText (some m) =
        "\x7b" ++ ("\"" ++ m.name ++ "\"") ++ "," ++ (m.type.constant ++ "\x7d,") := by
      simp [imageText, ← String.toList_inj]
    rw [htext]
    exact ((hopen.append (inert_quoted (h m rfl))).append hcomma).append htype

/-! ### Lines of descriptors -/

/-- A word and a comment on it. -/
lemma inert_wordLine {indent w comment : String} (hindent : Inert indent) (hw : IsWord w)
    (hcomment : Inert comment) (hhead : comment.toList.head? = some ',') :
    Inert (indent ++ w ++ comment) := by
  rw [String.append_assoc]
  exact hindent.append (.word_append hw hcomment (.inl hhead))

lemma inert_quotedLine {indent w comment : String} (hindent : Inert indent) (hw : IsWord w)
    (hcomment : Inert comment) : Inert (indent ++ "\"" ++ w ++ ("\"" ++ comment)) := by
  have h := (hindent.append (inert_quoted hw)).append hcomment
  simpa [String.append_assoc] using h

lemma declares_blockLines {b : Option BlockEntry} (h : ∀ e ∈ b, IsWord e.name) :
    Declares (blockLines b) [] [] := by
  have hsize : Inert s!"        {(b.map BlockEntry.size).getD 0}, /* size */" :=
    inert_wordLine (.of_chars rfl) (isWord_repr _) (.of_chars rfl) rfl
  have hopen : Inert "        \x7b /* uniforms */" := .of_chars rfl
  have hclose : Inert " \x7d," := .of_chars rfl
  have huniforms := (hopen.append (inert_uniformTexts h)).append hclose
  have hfirst : Inert "      \x7b" := .of_chars rfl
  have hlast : Inert "      \x7d," := .of_chars rfl
  exact .cons hfirst.declares (.cons hsize.declares (.cons huniforms.declares hlast.declares))

/-- The array that a stage's code is in. -/
def StageCode.array : StageCode → String
  | source array     => array
  | bytecode array _ => array

lemma declares_stageCode {c : StageCode} (h : IsWord c.array) : Declares c.lines [] [] := by
  cases c with
  | source array =>
    have harray : Inert s!"    {array}, /* source */" :=
      inert_wordLine (.of_chars rfl) h (.of_chars rfl) rfl
    have hbytecode : Inert "    0,  /* bytecode */" := .of_chars rfl
    have hsize : Inert "    0,  /* bytecode_size */" := .of_chars rfl
    exact .cons harray.declares (.cons hbytecode.declares hsize.declares)
  | bytecode array size =>
    have hsource : Inert "    0, /* source */" := .of_chars rfl
    have harray : Inert s!"    {array}, /* bytecode */" :=
      inert_wordLine (.of_chars rfl) h (.of_chars rfl) rfl
    have hsize : Inert s!"    {size}, /* bytecode_size */" :=
      inert_wordLine (.of_chars rfl) (isWord_repr _) (.of_chars rfl) rfl
    exact .cons hsource.declares (.cons harray.declares hsize.declares)

/-- The names in the description of a stage. -/
def StageDescriptor.names (s : StageDescriptor) : List String :=
  [s.code.array, s.entry] ++ s.blocks.toList.flatMap (fun b => b.toList.map BlockEntry.name) ++
    s.images.toList.flatMap fun m => m.toList.map ImageEntry.name

lemma declares_stageDescriptor {s : StageDescriptor} (h : ∀ n ∈ s.names, IsWord n) :
    Declares s.lines [] [] := by
  simp only [StageDescriptor.names, List.forall_mem_append, List.forall_mem_cons,
    List.forall_mem_flatMap, List.forall_mem_map, Option.mem_toList] at h
  obtain ⟨⟨⟨harray, hentry, -⟩, hblocks⟩, himages⟩ := h
  have hfirst : Inert s!"  \x7b /* {s.stage.abbreviation} */" := by
    have hvertex : Inert "  \x7b /* vs */" := .of_chars rfl
    have hfragment : Inert "  \x7b /* fs */" := .of_chars rfl
    cases s.stage with
    | vertex   => exact hvertex
    | fragment => exact hfragment
  have hindent : Inert "    " := .of_chars rfl
  have hcomment : Inert ", /* entry */" := .of_chars rfl
  have hentry : Inert s!"    \"{s.entry}\", /* entry */" :=
    inert_quotedLine hindent hentry hcomment
  have hblocksOpen : Inert "    \x7b /* uniform blocks */" := .of_chars rfl
  have hblocks : Declares (s.blocks.toList.flatMap blockLines) [] [] :=
    .flatMap_nil fun b hb => declares_blockLines fun e he => hblocks b hb e he
  have hblocksClose : Inert "    \x7d," := .of_chars rfl
  have himagesOpen : Inert "    \x7b /* images */ " := .of_chars rfl
  have himages : Inert (String.join (s.images.toList.map imageText)) :=
    .join fun m hm => inert_imageText fun e he => himages m hm e he
  have himagesClose : Inert " \x7d," := .of_chars rfl
  have himages := ((himagesOpen.append himages).append himagesClose).declares
  have hlast : Inert "  \x7d," := .of_chars rfl
  have hcode := Declares.cons hfirst.declares (declares_stageCode harray)
  have hhead := Declares.cons hentry.declares hblocksOpen.declares
  have htail := Declares.cons hblocksClose.declares (himages.cons hlast.declares)
  exact ((hcode.append hhead).append hblocks).append htail

/-- The names in a descriptor. -/
def Descriptor.names (d : Descriptor) : List String :=
  [d.name, d.label] ++
    d.attributes.toList.flatMap (fun a => a.toList.flatMap fun e => [e.name, e.semantic]) ++
    d.vertex.names ++ d.fragment.names

/-- A descriptor defines nothing but itself. -/
lemma declares_descriptor {d : Descriptor} (h : ∀ n ∈ d.names, IsWord n) (hne : d.name ≠ "") :
    Declares d.lines [] [d.name] := by
  simp only [Descriptor.names, List.forall_mem_append, List.forall_mem_cons,
    List.forall_mem_flatMap, Option.mem_toList] at h
  obtain ⟨⟨⟨⟨hname, hlabel, -⟩, hattributes⟩, hvertex⟩, hfragment⟩ := h
  have hfirst : Declares [s!"static const sg_shader_desc {d.name} = \x7b"] [] [d.name] := by
    refine .line [.word "static", .word "const", .word "sg_shader_desc", .word d.name,
      .symbol "=", .symbol "\x7b"] ⟨?_, ?_⟩ ⟨by simp, by simp⟩ (.head d.name)
    · simp [hname.plain]
    · simp [run_word hname, run, step, start, isWordChar, wordTokens_of_ne hne]
  have hstart : Inert "  0, /* _start_canary */" := .of_chars rfl
  have hattributesOpen : Inert "  \x7b /*attrs*/" := .of_chars rfl
  have hattributes : Inert (String.join (d.attributes.toList.map attributeText)) :=
    .join fun a ha => inert_attributeText fun e he =>
      ⟨(hattributes a ha e he).1, (hattributes a ha e he).2.1⟩
  have hattributesClose : Inert " \x7d," := .of_chars rfl
  have hattributes := ((hattributesOpen.append hattributes).append hattributesClose).declares
  have hindent : Inert "  " := .of_chars rfl
  have hcomment : Inert ", /* label */" := .of_chars rfl
  have hlabel : Inert s!"  \"{d.label}\", /* label */" :=
    inert_quotedLine hindent hlabel hcomment
  have hend : Inert "  0, /* _end_canary */" := .of_chars rfl
  have hlast : Inert "\x7d;" := .of_chars rfl
  -- the name is defined by the first line and by no other one
  have hhead := hfirst.append (.cons hstart.declares hattributes)
  have htail := Declares.cons hlabel.declares (.cons hend.declares hlast.declares)
  exact ((hhead.append (declares_stageDescriptor hvertex)).append
    (declares_stageDescriptor hfragment)).append htail

/-! ### Conditions -/

/-- A conditional part is kept if its symbol is defined, and always without a symbol. -/
lemma exists_reads_conditional (indent : String) {symbol : Option String} {body : List String}
    {tss : List (List Token)} (hindent : Segment indent [])
    (hsymbol : ∀ s ∈ symbol, IsWord s ∧ s ≠ "") (hbody : Reads body (tss.map .code)) :
    ∃ ls, Reads (conditional indent symbol body) ls ∧ Nested ls ∧
      ∀ M, Keeps M ls (if symbol.all M then tss.flatten else []) M := by
  have hnested : Nested (tss.map .code) := .map_code tss
  cases symbol with
  | none => exact ⟨_, hbody, hnested, fun M => .map_code M tss⟩
  | some s =>
    obtain ⟨hs, hne⟩ := hsymbol s rfl
    have hif : Reads [s!"{indent}#if defined({s})"] [.test true s] := by
      have hline : Segment s!"#if defined({s})\n" [.symbol "#", .word "if", .word "defined",
          .symbol "(", .word s, .symbol ")", .newline] := by
        constructor
        · simp [hs.plain]
        · simp [run_word hs, run, step, start, isWordChar, wordTokens_of_ne hne]
      refine .line [.symbol "#", .word "if", .word "defined", .symbol "(", .word s,
        .symbol ")"] ?_ (by simp) rfl
      simpa [String.append_assoc] using hindent.append hline
    have hendif : Reads [s!"{indent}#endif /* {s} */"] [.endIf] := by
      have hline : Segment s!"#endif /* {s} */\n" [.symbol "#", .word "endif", .newline] := by
        constructor
        · simp [hs.plain]
        · simp [run_block_word hs, run, step, start, isWordChar]
      refine .line [.symbol "#", .word "endif"] ?_ (by simp) rfl
      simpa [String.append_assoc] using hindent.append hline
    -- the symbol in the last line is in a comment and is not read
    have hreads : Reads (conditional indent (some s) body)
        (Line.test true s :: tss.map Line.code ++ [Line.endIf]) := hif.append (hbody.append hendif)
    refine ⟨_, hreads, .cond hnested, ?_⟩
    intro M
    cases hM : M s with
    | true  => simpa [hM] using Keeps.cond hM (.map_code M tss)
    | false => simpa [hM] using Keeps.cond_of_ne (by simp [hM]) hnested

/-! ### Sections -/

/-- Some text defines arrays and descriptors, and no function. Which ones depends on the symbols
that are defined. -/
def Offers (text : List String) (as : Symbols → List Definition) (names : Symbols → List String) :
    Prop :=
  ∃ ls, Reads text ls ∧ Nested ls ∧ ∀ M, ∃ ts, Keeps M ls ts M ∧ Defines ts (as M) (names M)

lemma Offers.flatMap {α : Type} {text : α → List String} {as : α → Symbols → List Definition}
    {names : α → Symbols → List String} {xs : List α}
    (h : ∀ x ∈ xs, Offers (text x) (as x) (names x)) :
    Offers (xs.flatMap text) (fun M => xs.flatMap (as · M)) fun M => xs.flatMap (names · M) := by
  induction xs with
  | nil => exact ⟨[], .nil, .nil, fun M => ⟨[], .nil M, .nil⟩⟩
  | cons x xs ih =>
    obtain ⟨hx, hxs⟩ := List.forall_mem_cons.mp h
    obtain ⟨ls, hls, hnested, hkeeps⟩ := hx
    obtain ⟨ms, hms, hnested', hkeeps'⟩ := ih hxs
    refine ⟨ls ++ ms, hls.append hms, hnested.append hnested', ?_⟩
    intro M
    obtain ⟨ts, hts, hdefines⟩ := hkeeps M
    obtain ⟨us, hus, hdefines'⟩ := hkeeps' M
    exact ⟨ts ++ us, hts.append hus, hdefines.append hdefines'⟩

namespace Section

/-- The names in a section. -/
def names (s : Section) : List String :=
  s.code.flatMap Embedding.names ++ s.descriptors.flatMap Descriptor.names

lemma offers_lines {s : Section} (hguard : ∀ g ∈ s.guard, IsWord g ∧ g ≠ "")
    (h : ∀ n ∈ s.names, IsWord n) (htexts : ∀ e ∈ s.code, ¬ ['*', '/'] <:+: e.text.toList)
    (hcode : ∀ e ∈ s.code, ∀ n ∈ e.names, n ≠ "")
    (hdescriptors : ∀ d ∈ s.descriptors, d.name ≠ "") :
    Offers s.lines (fun M => if s.guard.all M then s.code.map (fun e => e.table.definition) else [])
      fun M => if s.guard.all M then s.descriptors.map Descriptor.name else [] := by
  simp only [names, List.forall_mem_append, List.forall_mem_flatMap] at h
  have hembeddings := Declares.flatMap fun e he =>
    declares_embedding (htexts e he) (h.1 e he) (hcode e he)
  have hdefinitions := Declares.flatMap fun d hd =>
    declares_descriptor (h.2 d hd) (hdescriptors d hd)
  have hnone : s.code.flatMap (fun _ => ([] : List String)) = [] := by
    simp [List.flatMap_eq_nil_iff]
  have hnone' : s.descriptors.flatMap (fun _ => ([] : List Definition)) = [] := by
    simp [List.flatMap_eq_nil_iff]
  rw [← List.map_eq_flatMap, hnone] at hembeddings
  rw [← List.map_eq_flatMap, hnone'] at hdefinitions
  obtain ⟨tss, hreads, hdefines⟩ := hembeddings.append hdefinitions
  rw [List.append_nil, List.nil_append] at hdefines
  obtain ⟨ls, hls, hnested, hkeeps⟩ :=
    exists_reads_conditional "" ⟨by decide, rfl⟩ hguard hreads
  refine ⟨ls, hls, hnested, fun M => ⟨_, hkeeps M, ?_⟩⟩
  cases hseen : s.guard.all M with
  | true  => simpa [hseen] using hdefines
  | false => simpa [hseen] using Defines.nil

end Section

/-! ### Sections of editions -/

lemma Dialect.isWord_symbol (d : Dialect) : IsWord d.symbol ∧ d.symbol ≠ "" := by
  cases d <;> exact ⟨.of_chars rfl, by decide⟩

lemma Dialect.isWord_guard (d : Dialect) (guarded : Bool) :
    ∀ s ∈ d.guard guarded, IsWord s ∧ s ≠ "" := by
  cases guarded with
  | true  => rintro _ ⟨⟩; exact d.isWord_symbol
  | false => rintro _ ⟨⟩

lemma Naming.descriptor_ne_empty (qualifier program : String) (d : Dialect) :
    Naming.descriptor qualifier program d ≠ "" := by
  simp [Naming.descriptor]

/-- A section of an edition defines the arrays of all its stages and the descriptors of all
programs where its guard is defined, and nothing elsewhere. -/
lemma Section.offers_ofEdition {f : ShaderFile} {e : Edition} {guarded : Bool}
    (h : ∀ n ∈ (ofEdition f e guarded).names, IsWord n)
    (htexts : ∀ c ∈ (ofEdition f e guarded).code, ¬ ['*', '/'] <:+: c.text.toList) :
    Offers (ofEdition f e guarded).lines
      (fun M => if (e.dialect.guard guarded).all M then
        (ofEdition f e guarded).code.map fun c => c.table.definition
      else [])
      fun M => if (e.dialect.guard guarded).all M then
        e.programs.map fun p => Naming.descriptor f.qualifier p.program.name e.dialect
      else [] := by
  have hcode : ∀ c ∈ (ofEdition f e guarded).code, ∀ n ∈ c.names, n ≠ "" := by
    intro c hc n hn
    obtain ⟨⟨snippet, position⟩, -, hembed⟩ := List.mem_filterMap.mp hc
    rw [embed?] at hembed
    split_ifs at hembed
    obtain ⟨source, -, rfl⟩ := Option.map_eq_some_iff.mp hembed
    exact Embedding.ne_empty_of_mem_names hn
  have hdescriptors : ∀ d ∈ (ofEdition f e guarded).descriptors, d.name ≠ "" := by
    intro d hd
    obtain ⟨p, -, rfl⟩ := List.mem_map.mp hd
    exact Naming.descriptor_ne_empty _ _ _
  have hoffers := offers_lines (e.dialect.isWord_guard guarded) h htexts hcode hdescriptors
  have hnames : (ofEdition f e guarded).descriptors.map Descriptor.name =
      e.programs.map fun p => Naming.descriptor f.qualifier p.program.name e.dialect := by
    rw [ofEdition, List.map_map]
    rfl
  rwa [hnames] at hoffers

end ShaderHeader
