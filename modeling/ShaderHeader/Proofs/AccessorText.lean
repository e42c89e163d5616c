import ShaderHeader.Header.Accessor
import ShaderHeader.Proofs.SectionText

/-!
# The text of accessors

An accessor is read as a function whose statements depend on the symbols that are defined: a choice
whose part is left out has no statement.
-/

namespace ShaderHeader

open Reading

/-! ### Statements -/

/-- The statements of an accessor that are left where these symbols are defined. -/
def statements (M : Symbols) : List Choice → List Statement
  | [c] =>
    (if c.guard.all M then [Statement.give (some c.descriptor)] else []) ++
      if c.guard.isSome then [Statement.give none] else []
  | cs  =>
    cs.flatMap (fun c => if c.guard.all M then [.test c.backend c.descriptor] else []) ++
      [Statement.give none]

/-- A choice whose names can be read. -/
structure Choice.IsReadable (c : Choice) : Prop where
  guard : ∀ s ∈ c.guard, IsWord s ∧ s ≠ ""
  backend : IsWord c.backend ∧ c.backend ≠ ""
  descriptor : IsWord c.descriptor ∧ c.descriptor ≠ ""

/-- Some text is read as statements, which depend on the symbols that are defined. -/
def States (text : List String) (ss : Symbols → List Statement) : Prop :=
  ∃ ls, Reads text ls ∧ Nested ls ∧ ∀ M, Keeps M ls ((ss M).flatMap Statement.tokens) M

namespace States

variable {L K : List String} {ss ts : Symbols → List Statement}

lemma nil : States [] fun _ => [] := ⟨[], .nil, .nil, .nil⟩

lemma append (hL : States L ss) (hK : States K ts) : States (L ++ K) fun M => ss M ++ ts M := by
  obtain ⟨ls, hL, hls, hkeeps⟩ := hL
  obtain ⟨ms, hK, hms, hkeeps'⟩ := hK
  refine ⟨ls ++ ms, hL.append hK, hls.append hms, ?_⟩
  intro M
  rw [List.flatMap_append]
  exact (hkeeps M).append (hkeeps' M)

lemma flatMap {α : Type} {text : α → List String} {out : α → Symbols → List Statement} {as : List α}
    (h : ∀ a ∈ as, States (text a) (out a)) :
    States (as.flatMap text) fun M => as.flatMap (out · M) := by
  induction as with
  | nil => exact nil
  | cons a as ih =>
    obtain ⟨ha, has⟩ := List.forall_mem_cons.mp h
    exact ha.append (ih has)

lemma conditional {symbol : Option String} {body : List String} (tss : List (List Token))
    {s : Statement} (hsymbol : ∀ s ∈ symbol, IsWord s ∧ s ≠ "")
    (hbody : Reads body (tss.map .code)) (htokens : tss.flatten = s.tokens) :
    States (ShaderHeader.conditional "    " symbol body) fun M =>
      if symbol.all M then [s] else [] := by
  obtain ⟨ls, hreads, hnested, hkeeps⟩ :=
    exists_reads_conditional "    " ⟨by decide, rfl⟩ hsymbol hbody
  refine ⟨ls, hreads, hnested, ?_⟩
  intro M
  have hM := hkeeps M
  cases h : symbol.all M with
  | true  => simpa [h, htokens] using hM
  | false => simpa [h] using hM

end States

/-! ### Choices -/

namespace Choice

variable {c : Choice}

lemma reads_return (h : c.IsReadable) (indent : String) (hindent : Segment indent []) :
    Reads [s!"{indent}return &{c.descriptor};"]
      [.code [.word "return", .symbol "&", .word c.descriptor, .symbol ";"]] := by
  obtain ⟨hword, hne⟩ := h.descriptor
  have hline : Segment s!"return &{c.descriptor};\n"
      [.word "return", .symbol "&", .word c.descriptor, .symbol ";", .newline] := by
    constructor
    · simp [hword.plain]
    · simp [run_word hword, run, step, start, isWordChar, wordTokens_of_ne hne]
  refine .code ?_ (by simp) rfl
  simpa [String.append_assoc] using hindent.append hline

lemma states_onlyLines (h : c.IsReadable) :
    States c.onlyLines fun M => if c.guard.all M then [.give (some c.descriptor)] else [] :=
  .conditional [_] h.guard (reads_return h "    " ⟨by decide, rfl⟩) (List.append_nil _)

lemma states_testLines (h : c.IsReadable) :
    States c.testLines fun M => if c.guard.all M then [.test c.backend c.descriptor] else [] := by
  obtain ⟨hword, hne⟩ := h.backend
  have hif : Reads [s!"    if (sg_query_backend() == {c.backend}) \x7b"]
      [.code [.word "if", .symbol "(", .word "sg_query_backend", .symbol "(", .symbol ")",
        .symbol "==", .word c.backend, .symbol ")", .symbol "\x7b"]] := by
    refine .code ⟨?_, ?_⟩ (by simp) rfl
    · simp [hword.plain]
    · simp [run_word hword, run, step, start, isWordChar, wordTokens_of_ne hne]
  have hend : Reads ["    \x7d"] [.code [.symbol "\x7d"]] := .of_chars rfl
  have hreturn := reads_return h "        " ⟨by decide, rfl⟩
  exact .conditional [_, _, _] h.guard (hif.append (hreturn.append hend)) rfl

end Choice

/-! ### Accessors -/

namespace Accessor

lemma states_fallback : States fallback fun _ => [.give none] := by
  have hline : Reads fallback [.code [.word "return", .word "0", .symbol ";"]] :=
    .of_chars rfl
  exact ⟨_, hline, .line rfl, fun M => .code M _⟩

lemma states_body {cs : List Choice} (h : ∀ c ∈ cs, c.IsReadable) :
    States (body cs) fun M => statements M cs := by
  have hmany : States (cs.flatMap Choice.testLines ++ fallback) fun M =>
      cs.flatMap (fun c => if c.guard.all M then [.test c.backend c.descriptor] else []) ++
        [Statement.give none] :=
    (States.flatMap fun c hc => Choice.states_testLines (h c hc)).append states_fallback
  rcases cs with _ | ⟨c, _ | ⟨c', cs⟩⟩
  · exact hmany
  · have hfallback : States (if c.guard.isSome then fallback else []) fun _ =>
        if c.guard.isSome then [.give none] else [] := by
      cases c.guard with
      | none   => exact .nil
      | some _ => exact states_fallback
    exact (Choice.states_onlyLines (h c List.mem_cons_self)).append hfallback
  · exact hmany

/-- The tokens of an accessor where these symbols are defined. -/
def tokens (M : Symbols) (a : Accessor) : List Token :=
  signature a.name ++ ((statements M a.choices).flatMap Statement.tokens ++ [Token.symbol "\x7d"])

lemma exists_reads {a : Accessor} (hname : IsWord a.name) (hne : a.name ≠ "")
    (h : ∀ c ∈ a.choices, c.IsReadable) :
    ∃ ls, Reads a.lines ls ∧ Nested ls ∧ ∀ M, Keeps M ls (a.tokens M) M := by
  have hhead : Reads [s!"static inline const sg_shader_desc* {a.name}(void) \x7b"]
      [.code (signature a.name)] := by
    refine .code ⟨?_, ?_⟩ (by simp [signature]) rfl
    · simp [hname.plain]
    · simp [signature, run_word hname, run, step, start, isWordChar, wordTokens_of_ne hne]
  have hend : Reads ["\x7d"] [.code [.symbol "\x7d"]] := .of_chars rfl
  obtain ⟨ls, hbody, hnested, hkeeps⟩ := states_body h
  refine ⟨_, hhead.append (hbody.append hend), .append (.line rfl) (hnested.append (.line rfl)), ?_⟩
  intro M
  exact (Keeps.code M _).append ((hkeeps M).append (.code M _))

/-- All accessors are read as functions, one after another. -/
lemma functions_flatMap (known : List String) (M : Symbols) (as : List Accessor)
    (rest : List Token) :
    functions known (as.flatMap (tokens M) ++ rest) =
      as.map (fun a => ⟨a.name, known, some (statements M a.choices)⟩) ++ functions known rest := by
  induction as with
  | nil => rfl
  | cons a as ih =>
    have ha := functions_append known a.name (statements M a.choices)
      (as.flatMap (tokens M) ++ rest)
    rw [ih] at ha
    simpa only [List.flatMap_cons, List.map_cons, tokens, List.append_assoc, List.cons_append,
      List.nil_append] using ha

end Accessor

end ShaderHeader
