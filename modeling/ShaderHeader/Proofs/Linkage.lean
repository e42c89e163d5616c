import ShaderHeader.Proofs.Acceptance

/-!
# Linking programs

A program is linked stage by stage: the name of a snippet leads to its first declaration, and the
position of this one to the first source and the first bytecode that have been made from it. Names
and positions may occur as often as they like, and a compilation may speak of snippets that do not
exist. What can go wrong, and what is reported then, is said case by case (`StageFails`); the first
stage that goes wrong is the one reported.
-/

namespace ShaderHeader

open Check Keys

variable {f : ShaderFile} {d : Dialect} {c : Compilation} {p : Program} {stage : Stage}
  {name : String} {position : Nat} {s : Snippet}

/-! ### Look-ups -/

/-- The first snippet of a name, and where it is declared. -/
structure ShaderFile.FirstNamed (f : ShaderFile) (name : String) (position : Nat) (s : Snippet) :
    Prop where
  getElem?_eq : f.snippets[position]? = some s
  name_eq : s.name = name
  first : ∀ t ∈ f.snippets.take position, t.name ≠ name

namespace ShaderFile

lemma findSnippet?_eq_some_iff_firstNamed :
    f.findSnippet? name = some position ↔ ∃ s, f.FirstNamed name position s := by
  rw [findSnippet?_eq_some_iff]
  constructor
  · rintro ⟨⟨s, hget, hname⟩, hfirst⟩
    exact ⟨s, hget, hname, hfirst⟩
  · rintro ⟨s, hget, hname, hfirst⟩
    exact ⟨⟨s, hget, hname⟩, hfirst⟩

lemma findSnippet?_eq_none_iff : f.findSnippet? name = none ↔ ∀ s ∈ f.snippets, s.name ≠ name := by
  simp only [findSnippet?, List.findIdx?_eq_none_iff, decide_eq_false_iff_not, ne_eq]

end ShaderFile

namespace Compilation

lemma source?_eq_some_iff {s : Source} :
    c.source? position = some s ↔ IsFirstWith Source.snippet position c.sources s :=
  find?_eq_some_iff

lemma source?_eq_none_iff : c.source? position = none ↔ ∀ s ∈ c.sources, s.snippet ≠ position :=
  find?_eq_none_iff

lemma blob?_eq_iff {blob : Option Blob} :
    c.blob? position = blob ↔
      ∀ b, blob = some b ↔ IsFirstWith Blob.snippet position c.blobs b := by
  have hfirst : ∀ b, c.blob? position = some b ↔ IsFirstWith Blob.snippet position c.blobs b :=
    fun b => find?_eq_some_iff
  constructor
  · rintro rfl
    exact hfirst
  · intro h
    apply Option.ext
    intro b
    rw [hfirst, h]

end Compilation

/-! ### Stages -/

/-- A stage with all that belongs to it. -/
def StageLinks (f : ShaderFile) (c : Compilation) (p : Program) (stage : Stage) (l : LinkedStage) :
    Prop :=
  ∃ position, f.FirstNamed (p.snippet stage) position l.snippet ∧ l.snippet.kind = .stage stage ∧
    IsFirstWith Source.snippet position c.sources l.source ∧
    ∀ b, l.blob = some b ↔ IsFirstWith Blob.snippet position c.blobs b

/-- Why a stage is not linked, with the kind of failure that this is. -/
inductive StageFails (f : ShaderFile) (d : Dialect) (c : Compilation) (p : Program)
    (stage : Stage) : Category → Failure → Prop
  /-- No snippet has the name. -/
  | unknown (h : ∀ s ∈ f.snippets, s.name ≠ p.snippet stage) :
    StageFails f d c p stage .lookup
      ⟨f.path, p.line, .unknownSnippet stage (p.snippet stage) p.name⟩
  /-- The first snippet of the name is something else than code of the stage. -/
  | wrongStage {position : Nat} {s : Snippet} (hs : f.FirstNamed (p.snippet stage) position s)
    (hkind : s.kind ≠ .stage stage) :
    StageFails f d c p stage .consistency
      ⟨f.path, p.line, .wrongStage stage (p.snippet stage) p.name⟩
  /-- The first snippet of the name is code of the stage, but nothing has been made from it. -/
  | missingSource {position : Nat} {s : Snippet} (hs : f.FirstNamed (p.snippet stage) position s)
    (hkind : s.kind = .stage stage) (h : ∀ t ∈ c.sources, t.snippet ≠ position) :
    StageFails f d c p stage .lookup
      ⟨f.path, s.line, .missingStageSource d stage (p.snippet stage) p.name⟩

lemma linkStage?_eq_ok_iff_links {l : LinkedStage} :
    linkStage? f d c p stage = .ok l ↔ StageLinks f c p stage l := by
  simp only [linkStage?_eq_ok_iff, ShaderFile.findSnippet?_eq_some_iff_firstNamed,
    Compilation.source?_eq_some_iff, Compilation.blob?_eq_iff]
  constructor
  · rintro ⟨position, ⟨s, hs⟩, hget, hkind, hsource, hblob⟩
    obtain rfl : s = l.snippet := Option.some.inj (hs.getElem?_eq.symm.trans hget)
    exact ⟨position, hs, hkind, hsource, hblob⟩
  · rintro ⟨position, hs, hkind, hsource, hblob⟩
    exact ⟨position, ⟨_, hs⟩, hs.getElem?_eq, hkind, hsource, hblob⟩

/-- A snippet that is found is there, so its position is never out of range. -/
lemma linkStage?_of_firstNamed (hs : f.FirstNamed (p.snippet stage) position s) :
    linkStage? f d c p stage =
      if s.kind ≠ .stage stage then
        .error (f.failure p.line (.wrongStage stage (p.snippet stage) p.name))
      else
        match c.source? position with
        | none        =>
          .error (f.failure s.line (.missingStageSource d stage (p.snippet stage) p.name))
        | some source => .ok ⟨s, source, c.blob? position⟩ := by
  have hfind := ShaderFile.findSnippet?_eq_some_iff_firstNamed.mpr ⟨s, hs⟩
  cases hsource : c.source? position <;> simp only [linkStage?, hfind, hs.getElem?_eq, hsource]

lemma linkStage?_of_unknown (h : ∀ s ∈ f.snippets, s.name ≠ p.snippet stage) :
    linkStage? f d c p stage =
      .error (f.failure p.line (.unknownSnippet stage (p.snippet stage) p.name)) := by
  have hfind := ShaderFile.findSnippet?_eq_none_iff.mpr h
  simp only [linkStage?, hfind]

lemma stageFails_of_linkStage? {e : Failure} (h : linkStage? f d c p stage = .error e) :
    StageFails f d c p stage e.report.category e := by
  cases hfind : f.findSnippet? (p.snippet stage) with
  | none =>
    have hunknown := ShaderFile.findSnippet?_eq_none_iff.mp hfind
    rw [linkStage?_of_unknown hunknown] at h
    cases h
    exact .unknown hunknown
  | some position =>
    -- the first snippet of the name decides, and its kind before its source
    obtain ⟨s, hs⟩ := ShaderFile.findSnippet?_eq_some_iff_firstNamed.mp hfind
    rw [linkStage?_of_firstNamed hs] at h
    by_cases hkind : s.kind = .stage stage
    · rw [if_neg (not_not_intro hkind)] at h
      cases hsource : c.source? position with
      | some source =>
        rw [hsource] at h
        cases h
      | none =>
        rw [hsource] at h
        cases h
        exact .missingSource hs hkind (Compilation.source?_eq_none_iff.mp hsource)
    · rw [if_pos hkind] at h
      cases h
      exact .wrongStage hs hkind

lemma StageFails.linkStage?_eq {category : Category} {e : Failure}
    (h : StageFails f d c p stage category e) : linkStage? f d c p stage = .error e := by
  cases h with
  | unknown h => exact linkStage?_of_unknown h
  | wrongStage hs hkind =>
    rw [linkStage?_of_firstNamed hs, if_pos hkind]
    rfl
  | missingSource hs hkind h =>
    rw [linkStage?_of_firstNamed hs, if_neg (not_not_intro hkind),
      Compilation.source?_eq_none_iff.mpr h]
    rfl

lemma linkStage?_eq_error_iff {e : Failure} :
    linkStage? f d c p stage = .error e ↔ StageFails f d c p stage e.report.category e :=
  ⟨stageFails_of_linkStage?, StageFails.linkStage?_eq⟩

lemma exists_linkStage?_iff_not_fails :
    (∃ l, linkStage? f d c p stage = .ok l) ↔
      ∀ category e, ¬ StageFails f d c p stage category e := by
  constructor
  · rintro ⟨l, hl⟩ category e he
    cases hl.symm.trans he.linkStage?_eq
  · intro h
    cases hlink : linkStage? f d c p stage with
    | ok l    => exact ⟨l, rfl⟩
    | error e => exact absurd (stageFails_of_linkStage? hlink) (h _ e)

/-- Nothing more is needed of a stage than the snippet and one source. -/
lemma exists_linkStage?_iff :
    (∃ l, linkStage? f d c p stage = .ok l) ↔
      ∃ position s, f.FirstNamed (p.snippet stage) position s ∧ s.kind = .stage stage ∧
        ∃ source ∈ c.sources, source.snippet = position := by
  constructor
  · rintro ⟨l, hl⟩
    obtain ⟨position, hs, hkind, ⟨hsource, before, after, heq, -⟩, -⟩ :=
      linkStage?_eq_ok_iff_links.mp hl
    refine ⟨position, _, hs, hkind, l.source, ?_, hsource⟩
    rw [heq]
    exact List.mem_append_right _ List.mem_cons_self
  · rintro ⟨position, s, hs, hkind, source, hmem, hsource⟩
    rw [linkStage?_of_firstNamed hs, if_neg (not_not_intro hkind)]
    cases hfind : c.source? position with
    | some t => exact ⟨_, rfl⟩
    | none   => exact absurd hsource (Compilation.source?_eq_none_iff.mp hfind source hmem)

/-! ### Programs -/

/-- The vertex stage is linked before the fragment stage. -/
lemma linkProgram?_eq_error_iff {e : Failure} :
    linkProgram? f d c p = .error e ↔ linkStage? f d c p .vertex = .error e ∨
      (∃ l, linkStage? f d c p .vertex = .ok l) ∧ linkStage? f d c p .fragment = .error e := by
  simp [linkProgram?, bind_eq_error_iff, pure, Except.pure]

lemma exists_linkProgram?_iff :
    (∃ l, linkProgram? f d c p = .ok l) ↔ ∀ stage, ∃ l, linkStage? f d c p stage = .ok l := by
  simp only [linkProgram?_eq_ok_iff]
  constructor
  · rintro ⟨l, -, hstages⟩ stage
    exact ⟨_, hstages stage⟩
  · intro h
    obtain ⟨vertex, hvertex⟩ := h .vertex
    obtain ⟨fragment, hfragment⟩ := h .fragment
    refine ⟨⟨p, vertex, fragment⟩, rfl, ?_⟩
    intro stage
    cases stage with
    | vertex   => exact hvertex
    | fragment => exact hfragment

/-- A program is linked if for both of its stages the first snippet of the name is there, is code of
the stage and has a source. Then each stage has this snippet, with the first source and the first
bytecode of its position. Otherwise the failure is that of the vertex stage or, if this one can be
linked, that of the fragment stage, and it is never about a position that is out of range. -/
theorem linkProgram?_links_first (f : ShaderFile) (d : Dialect) (c : Compilation) (p : Program) :
    ((∃ l, linkProgram? f d c p = .ok l) ↔
      ∀ stage, ∃ position s, f.FirstNamed (p.snippet stage) position s ∧ s.kind = .stage stage ∧
        ∃ source ∈ c.sources, source.snippet = position) ∧
    (∀ l, linkProgram? f d c p = .ok l ↔
      l.program = p ∧ ∀ stage, StageLinks f c p stage (l.stage stage)) ∧
    (∀ e, linkProgram? f d c p = .error e ↔
      StageFails f d c p .vertex e.report.category e ∨
        (∀ category e', ¬ StageFails f d c p .vertex category e') ∧
          StageFails f d c p .fragment e.report.category e) ∧
    ∀ e, linkProgram? f d c p = .error e →
      ∀ snippet program, e.fault ≠ .danglingSnippet snippet program := by
  refine ⟨?_, ?_, ?_, ?_⟩
  · simp only [exists_linkProgram?_iff, exists_linkStage?_iff]
  · intro l
    simp only [linkProgram?_eq_ok_iff, linkStage?_eq_ok_iff_links]
  · intro e
    simp only [linkProgram?_eq_error_iff, linkStage?_eq_error_iff, exists_linkStage?_iff_not_fails]
  · intro e he snippet program
    have hfails : ∃ stage category, StageFails f d c p stage category e := by
      rcases linkProgram?_eq_error_iff.mp he with hvertex | ⟨-, hfragment⟩
      · exact ⟨_, _, stageFails_of_linkStage? hvertex⟩
      · exact ⟨_, _, stageFails_of_linkStage? hfragment⟩
    obtain ⟨stage, category, hfails⟩ := hfails
    cases hfails <;> simp

namespace Sample

/-- A file in which the fragment snippet is declared twice, the second time as a vertex snippet. -/
def redeclared : ShaderFile :=
  { path := "quad.glsl"
    snippets := [⟨"common", .shared, 1⟩, ⟨"vs", .stage .vertex, 5⟩, ⟨"fs", .stage .fragment, 12⟩,
      ⟨"fs", .stage .vertex, 20⟩] }

/-- Each stage has been compiled twice, and there is bytecode for a snippet that does not exist. -/
def recompiled : Compilation :=
  ⟨[⟨2, "first", fragment []⟩, ⟨1, "vertex", vertex⟩, ⟨2, "second", fragment [sky]⟩,
    ⟨1, "vertex again", vertex⟩], [⟨9, [1]⟩, ⟨2, [2]⟩, ⟨2, [3]⟩]⟩

/-- The first source and the first bytecode of the first snippet are linked. Shared text is not code
of a stage, which is reported also if nothing has been compiled. -/
theorem linkProgram?_links_first_of_redeclared :
    (∃ l, linkProgram? redeclared .hlsl5 recompiled ⟨"quad", "vs", "fs", 30⟩ = .ok l ∧
      StageLinks redeclared recompiled ⟨"quad", "vs", "fs", 30⟩ .fragment
        ⟨⟨"fs", .stage .fragment, 12⟩, ⟨2, "first", fragment []⟩, some ⟨2, [2]⟩⟩) ∧
    StageFails redeclared .hlsl5 {} ⟨"quad", "common", "fs", 30⟩ .vertex .consistency
      ⟨"quad.glsl", 30, .wrongStage .vertex "common" "quad"⟩ ∧
    StageFails redeclared .hlsl5 {} ⟨"quad", "vs", "gs", 30⟩ .vertex .lookup
      ⟨"quad.glsl", 5, .missingStageSource .hlsl5 .vertex "vs" "quad"⟩ := by
  refine ⟨?_, ?_, ?_⟩
  · -- the second of two snippets has no say, nor have later sources and blobs
    obtain ⟨-, hok, -⟩ :=
      linkProgram?_links_first redeclared .hlsl5 recompiled ⟨"quad", "vs", "fs", 30⟩
    obtain ⟨l, hl⟩ : ∃ l, linkProgram? redeclared .hlsl5 recompiled ⟨"quad", "vs", "fs", 30⟩ =
        .ok l ∧ l.fragment = ⟨⟨"fs", .stage .fragment, 12⟩, ⟨2, "first", fragment []⟩,
          some ⟨2, [2]⟩⟩ := exists_of_map_toOption rfl
    exact ⟨l, hl.1, hl.2 ▸ ((hok l).mp hl.1).2 .fragment⟩
  · -- a snippet of another kind is not consistent with the program
    obtain ⟨-, -, hfails, -⟩ :=
      linkProgram?_links_first redeclared .hlsl5 {} ⟨"quad", "common", "fs", 30⟩
    rcases (hfails ⟨"quad.glsl", 30, .wrongStage .vertex "common" "quad"⟩).mp rfl with h | ⟨-, h⟩
    · exact h
    · cases h
  · -- the vertex stage has no source, which is reported before the fragment stage
    obtain ⟨-, -, hfails, -⟩ :=
      linkProgram?_links_first redeclared .hlsl5 {} ⟨"quad", "vs", "gs", 30⟩
    rcases (hfails ⟨"quad.glsl", 5, .missingStageSource .hlsl5 .vertex "vs" "quad"⟩).mp rfl
      with h | ⟨hnone, -⟩
    · exact h
    · exact absurd (stageFails_of_linkStage? rfl) (hnone _ _)

end Sample

end ShaderHeader
