import ShaderHeader.Header
import ShaderHeader.Proofs.GuideText
import ShaderHeader.Proofs.Reading.Code
import ShaderHeader.Proofs.StructText

/-!
# The text of openings

What all dialects share is a comment, constants and structs. None of it touches the symbols on which
sections and accessors depend: the guards of a header see what is defined outside of it.
-/

namespace ShaderHeader

open Reading

/-! ### Guards -/

/-- The symbols that the parts of a header depend on. -/
def guardSymbols : List String :=
  ["SOKOL_SHDC_DECL", "SOKOL_GFX_INCLUDED"] ++ Dialect.all.map Dialect.symbol

lemma Dialect.symbol_mem_guardSymbols (d : Dialect) : d.symbol ∈ guardSymbols :=
  List.mem_append_right _ (List.mem_map_of_mem (mem_all d))

/-- Some text defines no descriptor, no function and no guard. -/
def Passive (text : List String) : Prop :=
  ∃ ls, Reads text ls ∧ Nested ls ∧
    ∀ M, ∃ ts M', Keeps M ls ts M' ∧ Defines ts [] [] ∧ ∀ s ∈ guardSymbols, M' s = M s

namespace Passive

variable {α : Type} {L K : List String}

lemma nil : Passive [] :=
  ⟨[], .nil, .nil, fun M => ⟨[], M, .nil M, .nil, fun _ _ => rfl⟩⟩

lemma append (hL : Passive L) (hK : Passive K) : Passive (L ++ K) := by
  obtain ⟨ls, hL, hls, hkeeps⟩ := hL
  obtain ⟨ms, hK, hms, hkeeps'⟩ := hK
  refine ⟨ls ++ ms, hL.append hK, hls.append hms, ?_⟩
  intro M
  obtain ⟨ts, M', hts, hsilent, hM'⟩ := hkeeps M
  obtain ⟨us, M'', hus, hsilent', hM''⟩ := hkeeps' M'
  exact ⟨ts ++ us, M'', hts.append hus, hsilent.append hsilent',
    fun s hs => (hM'' s hs).trans (hM' s hs)⟩

lemma flatMap {text : α → List String} {as : List α} (h : ∀ a ∈ as, Passive (text a)) :
    Passive (as.flatMap text) := by
  induction as with
  | nil => exact nil
  | cons a as ih =>
    obtain ⟨ha, has⟩ := List.forall_mem_cons.mp h
    exact ha.append (ih has)

lemma map {text : α → String} {as : List α} (h : ∀ a ∈ as, Passive [text a]) :
    Passive (as.map text) := by
  rw [List.map_eq_flatMap]
  exact flatMap h

/-- Code is passive if it defines nothing. -/
lemma of_declares (h : Declares L [] []) : Passive L := by
  obtain ⟨tss, hL, hts⟩ := h
  exact ⟨tss.map .code, hL, .map_code tss, fun M => ⟨tss.flatten, M, .map_code M tss, hts,
    fun _ _ => rfl⟩⟩

lemma of_neutral (h : Reads L [.neutral]) : Passive L :=
  ⟨[.neutral], h, .line rfl, fun M => ⟨[], M, .neutral M, .nil, fun _ _ => rfl⟩⟩

lemma of_define {symbol : String} (h : Reads L [.define symbol]) (hguard : symbol ∉ guardSymbols) :
    Passive L := by
  refine ⟨[.define symbol], h, .line rfl, fun M => ⟨[], _, .define M symbol, .nil, ?_⟩⟩
  intro s hs
  have hne : s ≠ symbol := fun heq => hguard (heq ▸ hs)
  exact Function.update_of_ne hne _ _

end Passive

lemma passive_guide {g : Guide} (h : ∀ n ∈ g.names, IsWord n) : Passive g.lines := by
  have hcomment : Reads ("/*" :: g.remarks ++ ["*/"]) [.code []] :=
    .comment (g.commentLine_remarks fun n hn => .of_isWord (h n hn))
  have hint : Reads ["#include <stdint.h>"] [.neutral] := .of_chars rfl
  have hbool : Reads ["#include <stdbool.h>"] [.neutral] := .of_chars rfl
  have hcode : Passive ("/*" :: g.remarks ++ ["*/"]) := .of_declares ⟨[[]], hcomment, .nil⟩
  rw [Guide.lines_eq]
  exact hcode.append ((Passive.of_neutral hint).append (.of_neutral hbool))

/-! ### Constants -/

/-- A name that a constant may have without being taken for a guard. -/
def IsConstantName (name : String) : Prop :=
  name ≠ "" ∧ name ∉ guardSymbols

lemma IsConstantName.of_take {name : String} (hne : name ≠ "")
    (h : name.toList.take 2 ≠ ['S', 'O']) : IsConstantName name := by
  have hguards : ∀ s ∈ guardSymbols, s.toList.take 2 = ['S', 'O'] := by decide
  exact ⟨hne, fun hmem => h (hguards name hmem)⟩

lemma isConstantName_slot (qualifier resource : String) :
    IsConstantName (Naming.slot qualifier resource) :=
  .of_take (by simp [Naming.slot]) (by simp [Naming.slot])

lemma isConstantName_location (qualifier snippet input : String) :
    IsConstantName (Naming.location qualifier snippet input) :=
  .of_take (by simp [Naming.location]) (by simp [Naming.location])

lemma passive_constant {c : Constant} (h : IsWord c.name) (hname : IsConstantName c.name) :
    Passive [c.line] := by
  obtain ⟨hne, hguard⟩ := hname
  have hvalue := isWord_repr c.value
  have hline : Reads [c.line] [.define c.name] := by
    refine .line [.symbol "#", .word "define", .word c.name, .symbol "(", .word c.value.repr,
      .symbol ")"] ⟨?_, ?_⟩ (by simp) rfl
    · unfold Constant.line
      simp [h.plain, hvalue.plain, -Nat.toList_repr]
    · unfold Constant.line
      simp [run_word h, run_word hvalue, run, step, start, isWordChar, wordTokens_of_ne hne,
        -Nat.toList_repr]
  exact .of_define hline hguard

/-! ### Structs -/

/-- Whether the alignment has a definition already does not matter, nor does the compiler. -/
lemma passive_alignmentLines : Passive alignmentLines := by
  have hif : Reads ["#if !defined(SOKOL_SHDC_ALIGN)"] [.test false "SOKOL_SHDC_ALIGN"] :=
    .of_chars rfl
  have hcompiler : Reads ["#if defined(_MSC_VER)"] [.test true "_MSC_VER"] := .of_chars rfl
  have hfirst : Reads ["#define SOKOL_SHDC_ALIGN(a) __declspec(align(a))"]
      [.define "SOKOL_SHDC_ALIGN"] := .of_chars rfl
  have helse : Reads ["#else"] [.otherwise] := .of_chars rfl
  have hsecond : Reads ["#define SOKOL_SHDC_ALIGN(a) __attribute__((aligned(a)))"]
      [.define "SOKOL_SHDC_ALIGN"] := .of_chars rfl
  have hend : Reads ["#endif"] [.endIf] := .of_chars rfl
  have hguard : "SOKOL_SHDC_ALIGN" ∉ guardSymbols := by decide
  generalize hinner : Line.test true "_MSC_VER" :: [Line.define "SOKOL_SHDC_ALIGN"] ++
    Line.otherwise :: [Line.define "SOKOL_SHDC_ALIGN"] ++ [Line.endIf] = inner
  have hreads : Reads alignmentLines
      (Line.test false "SOKOL_SHDC_ALIGN" :: inner ++ [Line.endIf]) :=
    hinner ▸ hif.append (hcompiler.append (hfirst.append (helse.append (hsecond.append
      (hend.append hend)))))
  have hnested : Nested inner := hinner ▸ .choice (.line rfl) (.line rfl)
  refine ⟨_, hreads, .cond hnested, ?_⟩
  -- the alignment is defined already, or it is defined here in one of two ways
  intro M
  cases hM : M "SOKOL_SHDC_ALIGN" with
  | true =>
    exact ⟨[], M, .cond_of_ne (by simp [hM]) hnested, .nil, fun _ _ => rfl⟩
  | false =>
    refine ⟨[], Function.update M "SOKOL_SHDC_ALIGN" true, .cond hM ?_, .nil, fun s hs => ?_⟩
    · rw [← hinner]
      cases hcompiler : M "_MSC_VER" with
      | true  => exact .choice hcompiler (.define M _) (.line rfl)
      | false => exact .choice_of_ne (by simp [hcompiler]) (.line rfl) (.define M _)
    · have hne : s ≠ "SOKOL_SHDC_ALIGN" := fun heq => hguard (heq ▸ hs)
      exact Function.update_of_ne hne _ _

/-- The names in the line of a member. -/
def Member.names : Member → List String
  | field _ _ .unsupported _ => []
  | m                        => [m.declared.type, m.declared.name]

lemma defines_dimsTokens (dims : List Nat) :
    Defines (CMember.dimsTokens dims ++ [Token.symbol ";"]) [] [] := by
  have hdims : Defines (CMember.dimsTokens dims) [] [] := by
    have hopen : Defines [.symbol "["] [] [] := .of_notMem (by decide)
    exact .flatMap_nil fun n _ => hopen.append (.word_symbol n.repr "]")
  exact hdims.append (.of_notMem (by decide))

lemma declares_memberLine {m : Member} (h : ∀ n ∈ m.names, IsWord n) : Declares [m.line] [] [] := by
  by_cases hsupported : m.IsSupported
  · have hnames : ∀ n ∈ [m.declared.type, m.declared.name], IsWord n := by
      cases m with
      | padding _ _               => exact h
      | field name offset type count =>
        cases type with
        | unsupported => exact hsupported.elim
        | _           => exact h
    obtain ⟨htype, hname, -⟩ := List.forall_mem_cons.mp hnames |>.imp_right List.forall_mem_cons.mp
    have hline := segment_declaration htype hname m.declared.dims
    rw [← Member.line_eq hsupported] at hline
    refine .line _ hline ?_ ?_
    · simp [IsCode, CMember.dimsTokens]
    · have hdims := defines_dimsTokens m.declared.dims
      generalize m.declared.dims = dims at hdims ⊢
      cases dims with
      | nil         => exact .words_append hdims
      | cons n dims => exact .words_append hdims
  · -- a marker stands in place of any other member
    have hinvalid : Inert "    INVALID_UNIFORM_TYPE;" := .of_chars rfl
    cases m with
    | padding _ _ => exact absurd trivial hsupported
    | field name offset type count =>
      cases type with
      | unsupported => exact hinvalid.declares
      | _           => exact absurd trivial hsupported

/-- The names in a struct. -/
def HostStruct.names (qualifier : String) (s : HostStruct) : List String :=
  [(s.constant qualifier).name, Naming.struct qualifier s.block] ++ s.members.flatMap Member.names

lemma passive_hostStruct {qualifier : String} {s : HostStruct}
    (h : ∀ n ∈ s.names qualifier, IsWord n) : Passive (s.lines qualifier) := by
  simp only [HostStruct.names, List.cons_append, List.nil_append, List.forall_mem_cons,
    List.forall_mem_flatMap] at h
  obtain ⟨hconstant, hstruct, hmembers⟩ := h
  have hslot : Passive [(s.constant qualifier).line] :=
    passive_constant hconstant (isConstantName_slot qualifier s.block)
  have hpush : Passive ["#pragma pack(push,1)"] :=
    .of_neutral (.of_chars rfl)
  have hpop : Passive ["#pragma pack(pop)"] :=
    .of_neutral (.of_chars rfl)
  have hne : Naming.struct qualifier s.block ≠ "" := by
    simp [Naming.struct]
  generalize hname : Naming.struct qualifier s.block = name at hstruct hne
  have hopen : Inert s!"SOKOL_SHDC_ALIGN({blockStride}) typedef struct {name} \x7b" := by
    change Inert ("SOKOL_SHDC_ALIGN(" ++ "16" ++ ") typedef struct " ++ name ++ " \x7b")
    have hstart : Defines [.word "SOKOL_SHDC_ALIGN", .symbol "(", .word "16", .symbol ")",
        .word "typedef", .word "struct"] [] [] := .of_notMem (by decide)
    refine ⟨_, ⟨?_, ?_⟩, ⟨by simp, by simp⟩, hstart.append (.word_symbol name "\x7b")⟩
    · simp [hstruct.plain]
    · simp [run_word hstruct, run, step, start, isWordChar, wordTokens_of_ne hne]
  have hclose : Inert s!"\x7d {name};" := by
    have hstart : Defines [.symbol "\x7d"] [] [] := .of_notMem (by decide)
    refine ⟨_, ⟨?_, ?_⟩, ⟨by simp, by simp⟩, hstart.append (.word_symbol name ";")⟩
    · simp [hstruct.plain]
    · simp [run_word hstruct, run, step, start, isWordChar, wordTokens_of_ne hne]
  have hmembers : Declares (s.members.map Member.line) [] [] :=
    .map_nil fun m hm => declares_memberLine (hmembers m hm)
  have hcode := (hopen.declares.append hmembers).append hclose.declares
  have hall := hslot.append (hpush.append ((Passive.of_declares hcode).append hpop))
  simpa [HostStruct.lines, hname] using hall

/-! ### Openings -/

/-- The names in the shared declarations. -/
def Declarations.names (d : Declarations) : List String :=
  d.locations.map Constant.name ++ d.images.map Constant.name ++
    d.structs.flatMap (HostStruct.names d.qualifier)

lemma passive_declarations {d : Declarations} (h : ∀ n ∈ d.names, IsWord n)
    (hconstants : ∀ c ∈ d.locations ++ d.images, IsConstantName c.name) : Passive d.lines := by
  simp only [Declarations.names, List.forall_mem_append, List.forall_mem_map,
    List.forall_mem_flatMap] at h hconstants
  obtain ⟨⟨hlocations, himages⟩, hstructs⟩ := h
  have hlocations : Passive (d.locations.map Constant.line) :=
    .map fun c hc => passive_constant (hlocations c hc) (hconstants.1 c hc)
  have himages : Passive (d.images.map Constant.line) :=
    .map fun c hc => passive_constant (himages c hc) (hconstants.2 c hc)
  exact ((passive_alignmentLines.append hlocations).append himages).append
    (.flatMap fun s hs => passive_hostStruct (hstructs s hs))

namespace Opening

/-- The names in an opening. -/
def names (s : Opening) : List String :=
  s.guide.names ++ s.declarations.names

/-- The condition on which a header has sections and accessors. Inside of it, a header without its
runtime is refused. -/
def guardLines (s : Opening) : List String :=
  ["#if !defined(SOKOL_SHDC_DECL)",
    "#if !defined(SOKOL_GFX_INCLUDED)",
    s!"#error \"Please include sokol_gfx.h before {s.fileName}\"",
    "#endif"]

lemma lines_eq (s : Opening) :
    s.lines = s.guide.lines ++ s.declarations.lines ++ s.guardLines := rfl

end Opening

/-- Some lines under the condition of a header. -/
def guarded (ls : List Line) : List Line :=
  Line.test false "SOKOL_SHDC_DECL" ::
    (Line.test false "SOKOL_GFX_INCLUDED" :: [Line.error] ++ [Line.endIf] ++ ls) ++ [Line.endIf]

lemma Opening.reads_guarded {s : Opening} (h : IsQuotable s.fileName) {L : List String}
    {ls : List Line} (hL : Reads L ls) :
    Reads (s.guardLines ++ (L ++ ["#endif /* SOKOL_SHDC_DECL */"])) (guarded ls) := by
  have hdecl : Reads ["#if !defined(SOKOL_SHDC_DECL)"] [.test false "SOKOL_SHDC_DECL"] :=
    .of_chars rfl
  have hgfx : Reads ["#if !defined(SOKOL_GFX_INCLUDED)"] [.test false "SOKOL_GFX_INCLUDED"] :=
    .of_chars rfl
  have herror : Reads [s!"#error \"Please include sokol_gfx.h before {s.fileName}\""] [.error] := by
    have hplain : '\\' ∉ s.fileName.toList := fun hmem => (h _ hmem).2.2 rfl
    refine .line [.symbol "#", .word "error",
      .literal '"' ("Please include sokol_gfx.h before " ++ s.fileName)] ⟨?_, ?_⟩ (by simp) rfl
    · simp [hplain]
    · simp [run_literal h, run, step, start, isWordChar, ← String.toList_inj]
  have hend : Reads ["#endif"] [.endIf] := .of_chars rfl
  have hlast : Reads ["#endif /* SOKOL_SHDC_DECL */"] [.endIf] := .of_chars rfl
  exact (hdecl.append (hgfx.append (herror.append hend))).append (hL.append hlast)

lemma nested_guarded {ls : List Line} (h : Nested ls) : Nested (guarded ls) :=
  .cond (.append (.cond (.line rfl)) h)

/-- With the runtime, lines under the condition are kept as they are. -/
lemma keeps_guarded {M M' : Symbols} {ls : List Line} {ts : List Token}
    (hgfx : M "SOKOL_GFX_INCLUDED" = true) (hdecl : M "SOKOL_SHDC_DECL" = false)
    (h : Keeps M ls ts M') : Keeps M (guarded ls) ts M' := by
  have hruntime : Keeps M
      (Line.test false "SOKOL_GFX_INCLUDED" :: [Line.error] ++ [Line.endIf]) [] M :=
    .cond_of_ne (by simp [hgfx]) (.line rfl)
  exact .cond hdecl (hruntime.append h)

end ShaderHeader
