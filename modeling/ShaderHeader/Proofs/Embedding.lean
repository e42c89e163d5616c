import ShaderHeader.Proofs.Acceptance
import ShaderHeader.Proofs.SectionDefinitions

/-!
# Embedded code

The arrays of a section come from a pass over all snippets, while a descriptor finds its arrays by
the names of its program's snippets. Both choose between source text and bytecode in the same way,
and names of arrays are as distinct as those of snippets. So the array that a descriptor refers to
is defined, it is defined once, and it holds the code of the stage. A compiler agrees with this
reading of a section as long as no source text ends the comment that it is shown in.
-/

namespace ShaderHeader

open Check Reading

/-! ### Names of arrays -/

namespace Naming

variable {qualifier v w : String} {d : Dialect}

lemma source_eq_iff : source qualifier v d = source qualifier w d ↔ v = w := by
  simp only [source, String.append_left_inj, String.append_right_inj]

lemma bytecode_eq_iff : bytecode qualifier v d = bytecode qualifier w d ↔ v = w := by
  simp only [bytecode, String.append_left_inj, String.append_right_inj]

/-- Names with different parts in front of the dialect are different. -/
lemma append_ne_append {part part' : String} (h : ¬ part.toList <:+ part'.toList)
    (h' : ¬ part'.toList <:+ part.toList) :
    v ++ part ++ d.name ≠ w ++ part' ++ d.name := by
  intro heq
  have hlists : v.toList ++ part.toList = w.toList ++ part'.toList := by
    rw [← String.toList_append, ← String.toList_append, (String.append_left_inj _).mp heq]
  rcases List.suffix_or_suffix_of_suffix ⟨v.toList, hlists⟩ ⟨w.toList, rfl⟩ with hpart | hpart
  · exact h hpart
  · exact h' hpart

lemma source_ne_bytecode : source qualifier v d ≠ bytecode qualifier w d :=
  append_ne_append (by decide) (by decide)

lemma source_ne_descriptor : source qualifier v d ≠ descriptor qualifier w d :=
  append_ne_append (by decide) (by decide)

lemma bytecode_ne_descriptor : bytecode qualifier v d ≠ descriptor qualifier w d :=
  append_ne_append (by decide) (by decide)

end Naming

namespace Embedding

variable {qualifier v w : String} {d : Dialect} {s t : Source} {a b : Option Blob}

/-- Code of different snippets is in different arrays. -/
lemma snippet_eq_of_name_eq (h : (ofSource qualifier d v s a).table.name =
    (ofSource qualifier d w t b).table.name) : v = w := by
  cases a with
  | none =>
    cases b with
    | none   => exact Naming.source_eq_iff.mp h
    | some _ => exact absurd h Naming.source_ne_bytecode
  | some _ =>
    cases b with
    | none   => exact absurd h.symm Naming.source_ne_bytecode
    | some _ => exact Naming.bytecode_eq_iff.mp h

lemma name_ne_descriptor : (ofSource qualifier d v s a).table.name ≠
    Naming.descriptor qualifier w d := by
  cases a with
  | none   => exact Naming.source_ne_descriptor
  | some _ => exact Naming.bytecode_ne_descriptor

lemma name_ne_zero : (ofSource qualifier d v s a).table.name ≠ "0" := by
  intro heq
  have hlength := congrArg String.length heq
  have hzero : "0".length = 1 := rfl
  cases a with
  | none =>
    have hpart : "_source_".length = 8 := rfl
    simp only [ofSource, ByteTable.ofText, Naming.source, String.length_append] at hlength
    omega
  | some _ =>
    have hpart : "_bytecode_".length = 10 := rfl
    simp only [ofSource, ByteTable.ofBytecode, Naming.bytecode, String.length_append] at hlength
    omega

/-- A descriptor refers to the array that has been made from the same source and bytecode. -/
lemma array_code (l : LinkedStage) : (l.code qualifier d).array =
    (ofSource qualifier d l.snippet.name l.source l.blob).table.name := by
  obtain ⟨snippet, source, blob⟩ := l
  cases blob <;> rfl

end Embedding

/-! ### Arrays of a section -/

namespace Section

variable {f : ShaderFile} {e : Edition} {guarded : Bool}

/-- What is embedded has been made from the source and the bytecode of the snippet. -/
lemma exists_of_embed? {x : Snippet × Nat} {c : Embedding} (h : embed? f e x = some c) :
    ∃ s, e.compilation.source? x.2 = some s ∧
      c = .ofSource f.qualifier e.dialect x.1.name s (e.compilation.blob? x.2) := by
  rw [embed?] at h
  split at h
  · obtain ⟨s, hs, rfl⟩ := Option.map_eq_some_iff.mp h
    exact ⟨s, hs, rfl⟩
  · cases h

lemma exists_of_mem_code {c : Embedding} (hc : c ∈ (ofEdition f e guarded).code) :
    ∃ v s b, c = .ofSource f.qualifier e.dialect v s b := by
  obtain ⟨snippet, -, hembed⟩ := List.mem_filterMap.mp hc
  obtain ⟨s, -, rfl⟩ := exists_of_embed? hembed
  exact ⟨_, _, _, rfl⟩

lemma isStage_of_embed? {x : Snippet × Nat} {c : Embedding} (h : embed? f e x = some c) :
    x.1.isStage = true := by
  by_contra hstage
  rw [embed?, if_neg hstage] at h
  cases h

/-- The names of arrays are distinct if those of stages are. -/
lemma nodup_names (hnames : ((f.snippets.filter Snippet.isStage).map Snippet.name).Nodup) :
    ((ofEdition f e guarded).code.map fun c => c.table.name).Nodup := by
  have hstages : f.snippets.zipIdx.Pairwise fun x y =>
      x.1.isStage = true → y.1.isStage = true → x.1.name ≠ y.1.name := by
    rw [← List.zipIdx_map_fst 0 f.snippets, List.filter_map, List.map_map] at hnames
    exact List.pairwise_filter.mp (List.pairwise_map.mp hnames)
  rw [List.Nodup, List.pairwise_map, ofEdition, List.pairwise_filterMap]
  refine hstages.imp fun {x y} hne c hc c' hc' heq =>
    hne (isStage_of_embed? hc) (isStage_of_embed? hc') ?_
  obtain ⟨s, -, rfl⟩ := exists_of_embed? hc
  obtain ⟨t, -, rfl⟩ := exists_of_embed? hc'
  exact Embedding.snippet_eq_of_name_eq heq

/-- The code of every stage of a program is among the code of the section. -/
lemma mem_code {cs : Compilations} {d : Dialect} (h : Edition.check? f d cs = .ok e)
    {p : LinkedProgram} (hp : p ∈ e.programs) (stage : Stage) :
    .ofSource f.qualifier d (p.stage stage).snippet.name (p.stage stage).source
      (p.stage stage).blob ∈ (ofEdition f e guarded).code := by
  obtain ⟨hdialect, -⟩ := Edition.check?_eq_ok_iff.mp h
  obtain ⟨position, -, hget, hkind, hsource, hblob⟩ :=
    linkStage?_eq_ok_iff.mp (Edition.linkStage?_of_mem_programs h hp stage)
  refine List.mem_filterMap.mpr
    ⟨((p.stage stage).snippet, position), List.mem_zipIdx_iff_getElem?.mpr hget, ?_⟩
  have hstage : (p.stage stage).snippet.isStage = true := by
    simp [Snippet.isStage, hkind]
  rw [embed?, if_pos hstage, hsource, hblob, hdialect, Option.map_some]

/-- All definitions of a section, as they are read from its lines. -/
lemma definitions_eq (f : ShaderFile) (e : Edition) (guarded : Bool) :
    definitions (ofEdition f e guarded).lines =
      some ((ofEdition f e guarded).code.map (fun c => c.table.definition) ++
        (ofEdition f e guarded).descriptors.map Descriptor.definition) := by
  refine (spells_section (fun c hc => ?_) fun d hd => ?_).definitions_eq
  · obtain ⟨v, s, b, rfl⟩ := exists_of_mem_code hc
    cases b with
    | none   => exact .inl rfl
    | some _ => exact .inr rfl
  · obtain ⟨p, -, rfl⟩ := List.mem_map.mp hd
    have hname : ∀ l : LinkedStage, (l.code f.qualifier e.dialect).array ≠ "0" := by
      intro l
      rw [Embedding.array_code]
      exact Embedding.name_ne_zero
    exact ⟨hname p.vertex, hname p.fragment⟩

/-- The array of an embedded stage is the only definition of its name. -/
lemma filter_definitions (hnames : (f.snippets.map Snippet.name).Nodup) {c : Embedding}
    (hc : c ∈ (ofEdition f e guarded).code) :
    ((ofEdition f e guarded).code.map (fun c => c.table.definition) ++
      (ofEdition f e guarded).descriptors.map Descriptor.definition).filter
        (fun x => x.name = c.table.name) = [c.table.definition] := by
  have harrays : ((ofEdition f e guarded).code.map fun c => c.table.definition).filter
      (fun x => x.name = c.table.name) = [c.table.definition] := by
    rw [List.filter_map]
    exact congrArg (List.map fun c => c.table.definition)
      (Keys.filter_eq_singleton (nodup_names (hnames.sublist (List.filter_sublist.map _))) hc)
  have hdescriptors : ((ofEdition f e guarded).descriptors.map Descriptor.definition).filter
      (fun x => x.name = c.table.name) = [] := by
    obtain ⟨v, s, b, rfl⟩ := exists_of_mem_code hc
    refine List.filter_eq_nil_iff.mpr fun x hx heq => ?_
    obtain ⟨d, hd, rfl⟩ := List.mem_map.mp hx
    obtain ⟨p, -, rfl⟩ := List.mem_map.mp hd
    exact Embedding.name_ne_descriptor (of_decide_eq_true heq).symm
  rw [List.filter_append, harrays, hdescriptors, List.append_nil]

/-- A compiler finds the same arrays as the reader of lines where the section is seen, if names are
words and if no source text ends the comment that shows it. -/
theorem arrays_of_lines (hnames : ∀ n ∈ (ofEdition f e guarded).names, IsWord n)
    (htexts : ∀ c ∈ (ofEdition f e guarded).code, ¬ ['*', '/'] <:+: c.text.toList) :
    ∃ ds ls, definitions (ofEdition f e guarded).lines = some ds ∧
      Reading.lines (joinLines (ofEdition f e guarded).lines) = some ls ∧
      ∀ M, ∃ ts, preprocess M ls = some ts ∧
        arrays ts =
          if (e.dialect.guard guarded).all M then ds.filter Definition.isArray else [] := by
  obtain ⟨ls, hreads, -, hkept⟩ := offers_ofEdition hnames htexts
  refine ⟨_, _, definitions_eq f e guarded, hreads.lines_eq, fun M => ?_⟩
  obtain ⟨ts, hkeeps, hdefines⟩ := hkept M
  have harrays : ((ofEdition f e guarded).code.map (fun c => c.table.definition) ++
      (ofEdition f e guarded).descriptors.map Descriptor.definition).filter Definition.isArray =
        (ofEdition f e guarded).code.map fun c => c.table.definition := by
    rw [List.filter_append, List.filter_eq_self.mpr, List.filter_eq_nil_iff.mpr, List.append_nil]
    · simp [Descriptor.definition, Definition.isArray]
    · simp [ByteTable.definition, Definition.isArray]
  refine ⟨ts ++ [], (hkeeps.append (.code M [])).preprocess_eq, ?_⟩
  rw [harrays, hdefines.arrays_append, arrays, List.append_nil]

/-- What is in the first of two lists is before whatever is in the second one only. -/
lemma mem_before {α : Type} {first second before after : List α} {r x : α}
    (h : first ++ second = before ++ r :: after) (hr : r ∉ first) (hx : x ∈ first) :
    x ∈ before := by
  rcases List.append_eq_append_iff.mp h with ⟨more, rfl, -⟩ | ⟨more, rfl, hmore⟩
  · exact List.mem_append_left _ hx
  · cases more with
    | nil => simpa using hx
    | cons y more =>
      obtain ⟨rfl, -⟩ := List.cons.inj hmore
      exact absurd (List.mem_append_right _ List.mem_cons_self) hr

end Section

/-! ### Stages -/

lemma utf8_eq (text : String) : utf8 text = text.toUTF8.data.toList := by
  rw [utf8, String.toUTF8_eq_toByteArray, ← String.utf8Encode_toList, List.utf8Encode]
  simp

lemma ByteTable.definition_ofText (name text : String) :
    (ofText name text).definition =
      .array "char" name (text.utf8ByteSize + 1) (text.toUTF8.data.toList ++ [0]) := by
  rw [definition, ofText, terminated, List.length_append, length_utf8, utf8_eq]
  rfl

/-- How the code of a snippet is embedded, and what a descriptor says about it then. Bytecode takes
the place of source text. -/
inductive EmbeddedAs (qualifier : String) (d : Dialect) (c : Compilation) (snippet : String)
    (position : Nat) : CodeFields → Definition → Prop
  | bytecode {b : Blob} (takes : d.takesBytecode = true) (blob : c.blob? position = some b) :
    EmbeddedAs qualifier d c snippet position
      ⟨none, some (Naming.bytecode qualifier snippet d), b.data.length⟩
      (.array "uint8_t" (Naming.bytecode qualifier snippet d) b.data.length b.data)
  | source {s : Source} (blob : c.blob? position = none) (source : c.source? position = some s) :
    EmbeddedAs qualifier d c snippet position
      ⟨some (Naming.source qualifier snippet d), none, 0⟩
      (.array "char" (Naming.source qualifier snippet d) (s.code.utf8ByteSize + 1)
        (s.code.toUTF8.data.toList ++ [0]))

lemma Edition.embeddedAs {f : ShaderFile} {d : Dialect} {cs : Compilations} {e : Edition}
    (h : Edition.check? f d cs = .ok e) {l : LinkedStage} {position : Nat}
    (hsource : e.compilation.source? position = some l.source)
    (hblob : e.compilation.blob? position = l.blob) :
    EmbeddedAs f.qualifier d e.compilation l.snippet.name position (l.code f.qualifier d).fields
      (Embedding.ofSource f.qualifier d l.snippet.name l.source l.blob).table.definition := by
  obtain ⟨-, -, -, -, hblobs, -⟩ := Edition.check?_eq_ok_iff.mp h
  obtain ⟨snippet, source, blob⟩ := l
  cases blob with
  | none =>
    rw [Embedding.ofSource, ByteTable.definition_ofText]
    exact .source hblob hsource
  | some b =>
    refine .bytecode (checkBlobs_eq_ok_iff.mp hblobs ?_) hblob
    exact List.ne_nil_of_mem (List.mem_of_find?_eq_some hblob)

/-- The code of every stage of a program is in a single array of the section, before the descriptor
of the program, and the descriptor refers to that array.

Definitions are read line by line, and a comment ends at a line `*/` only. So a source text that
contains `*/` is passed over like any other one; what a compiler makes of the comment that shows it
is left to the theory of block comments (`ShaderHeader.Proofs.CommentText`). Of all other texts,
`Section.arrays_of_lines` says that a compiler finds the same arrays. -/
theorem Section.stages_embedded_once {f : ShaderFile} {d : Dialect} {cs : Compilations}
    {e : Edition} (h : Edition.check? f d cs = .ok e)
    (hnames : (f.snippets.map Snippet.name).Nodup) (guarded : Bool) :
    ∃ ds, definitions (ofEdition f e guarded).lines = some ds ∧ cs d = some e.compilation ∧
      e.programs.map LinkedProgram.program = f.programs.values ∧
      ∀ p ∈ e.programs, ∃ fields : Stage → CodeFields, ∃ r ∈ ds,
        r = .descriptor (Naming.descriptor f.qualifier p.program.name d) (fields .vertex)
          (fields .fragment) ∧
        ∀ stage, ∃ position array,
          f.HasStageAt (p.program.snippet stage) stage position ∧
          EmbeddedAs f.qualifier d e.compilation (p.program.snippet stage) position (fields stage)
            array ∧
          ds.filter (fun x => x.name = array.name) = [array] ∧
          ∀ before after, ds = before ++ r :: after → array ∈ before := by
  obtain ⟨hdialect, hc, -⟩ := Edition.check?_eq_ok_iff.mp h
  refine ⟨_, definitions_eq f e guarded, hc, Edition.map_program_of_check? h, ?_⟩
  intro p hp
  have hr : (Descriptor.ofLinked f.qualifier d p).definition ∈
      (ofEdition f e guarded).descriptors.map Descriptor.definition := by
    rw [← hdialect]
    exact List.mem_map_of_mem (List.mem_map_of_mem hp)
  refine ⟨fun stage => ((p.stage stage).code f.qualifier d).fields, _,
    List.mem_append_right _ hr, rfl, ?_⟩
  intro stage
  obtain ⟨position, hstage, hget, hsource, hblob⟩ := Edition.hasStageAt_of_mem_programs h hp stage
  -- the snippet of the stage is embedded where the descriptor looks for it
  obtain ⟨s, hs, hname, -⟩ := hstage.exists_snippet
  obtain rfl : s = (p.stage stage).snippet := Option.some.inj (hs.symm.trans hget)
  have hcode : Embedding.ofSource f.qualifier d (p.stage stage).snippet.name
      (p.stage stage).source (p.stage stage).blob ∈ (ofEdition f e guarded).code :=
    mem_code h hp stage
  refine ⟨position, (Embedding.ofSource f.qualifier d (p.stage stage).snippet.name
    (p.stage stage).source (p.stage stage).blob).table.definition, hstage, ?_,
    filter_definitions hnames hcode, ?_⟩
  · rw [← hname]
    exact Edition.embeddedAs h hsource hblob
  · -- arrays are in front of all descriptors, and a descriptor is no array
    intro before after heq
    refine mem_before heq ?_ (List.mem_map.mpr ⟨_, hcode, rfl⟩)
    intro hmem
    obtain ⟨c, -, hdefinition⟩ := List.mem_map.mp hmem
    cases hdefinition

/-- The fragment stage of the small file is embedded as bytecode where that is taken. -/
theorem Sample.stages_embedded_once_of_assembled :
    ∃ e ds, Edition.check? file .hlsl5 (.ofList [(.hlsl5, assembled)]) = .ok e ∧
      definitions (Section.ofEdition file e true).lines = some ds ∧
      ds.filter (fun x => x.name = "fs_bytecode_hlsl5") =
        [.array "uint8_t" "fs_bytecode_hlsl5" 2 [0xde, 0xad]] := by
  obtain ⟨e, he, hprograms⟩ : ∃ e, Edition.check? file .hlsl5 (.ofList [(.hlsl5, assembled)]) =
      .ok e ∧ e.programs.map LinkedProgram.program = [⟨"quad", "vs", "fs", 30⟩] :=
    exists_of_map_toOption (by decide +kernel)
  obtain ⟨ds, hds, hc, -, hembedded⟩ := Section.stages_embedded_once he (by decide) true
  obtain ⟨p, hp, hprogram⟩ := exists_mem_of_map_eq hprograms List.mem_cons_self
  obtain ⟨fields, r, -, -, hstages⟩ := hembedded p hp
  obtain ⟨position, array, hstage, hcode, honce, -⟩ := hstages .fragment
  have hfragment : p.program.snippet .fragment = "fs" := by rw [hprogram]; rfl
  rw [hfragment] at hstage hcode
  have hposition : file.findSnippet? "fs" = some position :=
    ShaderFile.findSnippet?_eq_some_iff.mpr
      ⟨hstage.exists_snippet.imp fun _ hs => ⟨hs.1, hs.2.1⟩, hstage.first⟩
  obtain rfl : 1 = position := Option.some.inj hposition
  have hblob : e.compilation.blob? 1 = some ⟨1, [0xde, 0xad]⟩ := by
    rw [← Option.some.inj hc]
    rfl
  refine ⟨e, ds, he, hds, ?_⟩
  generalize fields .fragment = code at hcode
  cases hcode with
  | bytecode _ hb =>
    obtain rfl := Option.some.inj (hblob.symm.trans hb)
    exact honce
  | source hb _ => cases hblob.symm.trans hb

end ShaderHeader
