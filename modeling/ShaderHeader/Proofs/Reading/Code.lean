import ShaderHeader.Proofs.Reading.Function
import ShaderHeader.Proofs.Reading.Preprocess

/-!
# Plain code

Most lines of a header are code without directives. `Declares` says of such lines which arrays and
descriptors they define; most of them are `Inert`, as they define nothing at all.
-/

namespace ShaderHeader

namespace Reading

/-- Some text is code without directives. It defines some arrays and some descriptors, and no
function. -/
def Declares (text : List String) (as : List Definition) (names : List String) : Prop :=
  ∃ tss : List (List Token), Reads text (tss.map .code) ∧ Defines tss.flatten as names

/-- Tokens of a line that is not a directive. -/
def IsCode (ts : List Token) : Prop :=
  .newline ∉ ts ∧ .symbol "#" ∉ ts

/-- A line of code. -/
lemma Reads.of_segment {x : String} {ts : List Token} (hx : Segment x ts) (hts : IsCode ts) :
    Reads [x] [.code ts] := by
  have hend : Segment "\n" [.newline] := ⟨by decide, rfl⟩
  have hcode : Line.ofTokens? ts = some (.code ts) := by
    unfold Line.ofTokens?
    split
    · exact absurd List.mem_cons_self hts.2
    · rfl
  exact .line ts (hx.append hend) hts.1 hcode

namespace Declares

variable {α : Type} {L K : List String} {as bs : List Definition} {names more : List String}

lemma nil : Declares [] [] [] := ⟨[], .nil, .nil⟩

lemma append (hL : Declares L as names) (hK : Declares K bs more) :
    Declares (L ++ K) (as ++ bs) (names ++ more) := by
  obtain ⟨tss, hL, hts⟩ := hL
  obtain ⟨uss, hK, hus⟩ := hK
  refine ⟨tss ++ uss, ?_, ?_⟩
  · rw [List.map_append]
    exact hL.append hK
  · rw [List.flatten_append]
    exact hts.append hus

/-- Lines without definitions do not change what others define. -/
lemma cons {x : String} (hx : Declares [x] [] []) (hL : Declares L as names) :
    Declares (x :: L) as names :=
  hx.append hL

lemma flatMap {text names : α → List String} {defined : α → List Definition} {xs : List α}
    (h : ∀ x ∈ xs, Declares (text x) (defined x) (names x)) :
    Declares (xs.flatMap text) (xs.flatMap defined) (xs.flatMap names) := by
  induction xs with
  | nil => exact nil
  | cons x xs ih =>
    obtain ⟨hx, hxs⟩ := List.forall_mem_cons.mp h
    exact hx.append (ih hxs)

lemma flatMap_nil {text : α → List String} {xs : List α}
    (h : ∀ x ∈ xs, Declares (text x) [] []) : Declares (xs.flatMap text) [] [] := by
  induction xs with
  | nil => exact nil
  | cons x xs ih =>
    obtain ⟨hx, hxs⟩ := List.forall_mem_cons.mp h
    exact hx.append (ih hxs)

lemma map_nil {text : α → String} {xs : List α} (h : ∀ x ∈ xs, Declares [text x] [] []) :
    Declares (xs.map text) [] [] := by
  rw [List.map_eq_flatMap]
  exact flatMap_nil h

lemma line {x : String} (ts : List Token) (hx : Segment x ts) (hts : IsCode ts)
    (hdefines : Defines ts as names) : Declares [x] as names :=
  ⟨[ts], .of_segment hx hts, by simpa using hdefines⟩

end Declares

/-- A piece of a line that defines nothing and is no directive. -/
def Inert (x : String) : Prop :=
  ∃ ts, Segment x ts ∧ IsCode ts ∧ Defines ts [] []

namespace Inert

variable {x y : String}

lemma append (hx : Inert x) (hy : Inert y) : Inert (x ++ y) := by
  obtain ⟨ts, hx, ⟨hnewline, hsign⟩, hts⟩ := hx
  obtain ⟨us, hy, ⟨hnewline', hsign'⟩, hus⟩ := hy
  refine ⟨ts ++ us, hx.append hy, ⟨?_, ?_⟩, hts.append hus⟩
  · simp [hnewline, hnewline']
  · simp [hsign, hsign']

lemma join {α : Type} {text : α → String} {as : List α} (h : ∀ a ∈ as, Inert (text a)) :
    Inert (String.join (as.map text)) := by
  induction as with
  | nil => exact ⟨[], ⟨by simp, by simp⟩, ⟨List.not_mem_nil, List.not_mem_nil⟩, .nil⟩
  | cons a as ih =>
    obtain ⟨ha, has⟩ := List.forall_mem_cons.mp h
    simpa using ha.append (ih has)

/-- A fixed text can be checked. -/
lemma of_chars {cs : List Char} (h : decide ('\\' ∉ cs ∧ (run (.code []) cs).2 = .code [] ∧
    ∀ t ∈ (run (.code []) cs).1, t ≠ .newline ∧ t ≠ .symbol "#" ∧ t ≠ .word "static") = true) :
    Inert (String.ofList cs) := by
  obtain ⟨hplain, hmode, hts⟩ := of_decide_eq_true h
  have hsegment : Segment (String.ofList cs) (run (.code []) cs).1 := by
    constructor
    · rwa [String.toList_ofList]
    · rw [String.toList_ofList]
      exact Prod.ext rfl hmode
  refine ⟨_, hsegment, ⟨?_, ?_⟩, .of_notMem ?_⟩
  · intro hmem
    exact (hts _ hmem).1 rfl
  · intro hmem
    exact (hts _ hmem).2.1 rfl
  · intro hmem
    exact (hts _ hmem).2.2 rfl

/-- No definition starts with a word in front of a comma or of the end of an entry. -/
lemma word_append {w : String} (hw : IsWord w) (hx : Inert x)
    (hhead : x.toList.head? = some ',' ∨ x.toList.head? = some '\x7d') : Inert (w ++ x) := by
  obtain ⟨ts, hsegment, ⟨hnewline, hsign⟩, hts⟩ := hx
  obtain ⟨c, hc, hchar⟩ : ∃ c, x.toList.head? = some c ∧ (c = ',' ∨ c = '\x7d') := by
    rcases hhead with hhead | hhead
    · exact ⟨_, hhead, .inl rfl⟩
    · exact ⟨_, hhead, .inr rfl⟩
  have hnone : isWordChar c = false := by
    rcases hchar with rfl | rfl <;> decide
  -- the character behind the word ends it
  have hrun := hsegment.run_code ⟨c, hc, hnone⟩ w.toList
  obtain ⟨cs, hcs⟩ := List.head?_eq_some_iff.mp hc
  obtain ⟨s, us, rfl⟩ : ∃ s us, ts = .symbol s :: us := by
    have h := congrArg Prod.fst hsegment.run_eq
    rw [hcs] at h
    rcases hchar with rfl | rfl <;> exact ⟨_, _, h.symm⟩
  refine ⟨wordTokens w ++ .symbol s :: us, ⟨?_, ?_⟩, ?_, .words_append (v := "") hts⟩
  · simp [hw.plain, hsegment.plain]
  · have hword := run_word hw [] x.toList
    rw [String.toList_append, hword, List.nil_append, hrun]
    rfl
  · constructor
    · simpa using hnewline
    · simpa using hsign

lemma declares (h : Inert x) : Declares [x] [] [] := by
  obtain ⟨ts, hx, hts, hnames⟩ := h
  exact .line ts hx hts hnames

end Inert

end Reading

end ShaderHeader
