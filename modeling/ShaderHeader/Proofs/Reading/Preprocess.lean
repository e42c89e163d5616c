import ShaderHeader.Proofs.Reading.Token
import ShaderHeader.Text.Comment

/-!
# Preprocessing

The second part of what a C compiler does with a header: it reads the directives line by line and
keeps the lines whose conditions hold. The outcome depends on which symbols are defined. What a
symbol stands for does not matter for a condition, so no symbol is replaced here.
-/

namespace ShaderHeader

namespace Reading

/-! ### Lines -/

/-- A line of tokens or a directive. A directive that does not matter for conditions is neutral. -/
inductive Line
  | code (ts : List Token)
  | test (expected : Bool) (symbol : String)
  | otherwise
  | endIf
  | define (symbol : String)
  | error
  | neutral
  deriving DecidableEq

namespace Line

/-- The directive that is behind the sign for one. -/
def directive? : List Token → Option Line
  | [.word "if", .word "defined", .symbol "(", .word s, .symbol ")"]              =>
    some (test true s)
  | [.word "if", .symbol "!", .word "defined", .symbol "(", .word s, .symbol ")"] =>
    some (test false s)
  | [.word "else"]                                                                => some otherwise
  | [.word "endif"]                                                               => some endIf
  | .word "define" :: .word s :: _                                                =>
    some (define s)
  | .word "error" :: _                                                            => some error
  | .word "pragma" :: _                                                           => some neutral
  | .word "include" :: _                                                          => some neutral
  | _                                                                             => none

/-- The line that consists of some tokens. -/
def ofTokens? : List Token → Option Line
  | .symbol "#" :: ts => directive? ts
  | ts                => some (code ts)

/-- Whether a line starts, divides or ends a condition. -/
def isConditional : Line → Bool
  | test _ _ | otherwise | endIf => true
  | _                            => false

end Line

/-- The lines of some characters. -/
def readLines (cs : List Char) : Option (List Line) := do
  let ts ← readTokens cs
  (ts.splitOn .newline).mapM Line.ofTokens?

/-- The lines of a text. -/
def lines (text : String) : Option (List Line) :=
  readLines text.toList

/-- Lines in which every condition that is started is ended, and none is divided twice. -/
inductive Nested : List Line → Prop
  | nil : Nested []
  | line {l : Line} (h : l.isConditional = false) : Nested [l]
  | append {ls ms : List Line} (hls : Nested ls) (hms : Nested ms) : Nested (ls ++ ms)
  | cond {expected : Bool} {symbol : String} {ls : List Line} (h : Nested ls) :
    Nested (Line.test expected symbol :: ls ++ [Line.endIf])
  | choice {expected : Bool} {symbol : String} {ls ms : List Line} (hls : Nested ls)
    (hms : Nested ms) :
    Nested (Line.test expected symbol :: ls ++ Line.otherwise :: ms ++ [Line.endIf])

/-- Lines of code are nested. -/
lemma Nested.map_code (tss : List (List Token)) : Nested (tss.map .code) := by
  induction tss with
  | nil => exact .nil
  | cons ts tss ih => exact .append (.line rfl) ih

/-! ### Conditions -/

/-- Which symbols are defined. -/
abbrev Symbols := String → Bool

/-- A condition that has been started: whether it holds where the reader is, and whether it has been
divided. -/
structure Branch where
  holds : Bool
  divided : Bool := false
  deriving DecidableEq

/-- The symbols that are defined and the conditions that have not ended, the last one first. -/
structure State where
  symbols : Symbols
  branches : List Branch := []

/-- Whether all conditions hold. -/
def State.isLive (s : State) : Bool :=
  s.branches.all Branch.holds

/-- Reads one line. The result has the tokens that are kept. -/
def State.step (s : State) : Line → Option (List Token × State)
  | .code ts              => some (if s.isLive then ts else [], s)
  | .test expected symbol =>
    some ([], { s with branches := ⟨s.symbols symbol == expected, false⟩ :: s.branches })
  | .otherwise            =>
    match s.branches with
    | ⟨holds, false⟩ :: bs => some ([], { s with branches := ⟨!holds, true⟩ :: bs })
    | _                    => none
  | .endIf                =>
    match s.branches with
    | _ :: bs => some ([], { s with branches := bs })
    | []      => none
  | .define symbol        =>
    some ([], if s.isLive then { s with symbols := Function.update s.symbols symbol true } else s)
  | .error                => if s.isLive then none else some ([], s)
  | .neutral              => some ([], s)

/-- Reads some lines. -/
def process : State → List Line → Option (List Token × State)
  | s, []      => some ([], s)
  | s, l :: ls => do
    let (ts, s) ← s.step l
    let (us, s) ← process s ls
    return (ts ++ us, s)

/-- The tokens that are kept. No condition is left open, and no error is come across. -/
def preprocess (M : Symbols) (ls : List Line) : Option (List Token) := do
  let (ts, s) ← process ⟨M, []⟩ ls
  if s.branches = [] then some ts else none

@[simp] lemma process_nil (s : State) : process s [] = some ([], s) := rfl

lemma process_cons {s s' : State} {l : Line} {ts : List Token} (h : s.step l = some (ts, s'))
    (ls : List Line) :
    process s (l :: ls) = (process s' ls).map fun r => (ts ++ r.1, r.2) := by
  simp only [process, h, Option.bind_eq_bind, Option.bind_some]
  cases process s' ls <;> rfl

/-- Lines are read after those in front of them, from the state that these lead to. -/
lemma process_append {s s' : State} {ls : List Line} {ts : List Token}
    (h : process s ls = some (ts, s')) (ms : List Line) :
    process s (ls ++ ms) = (process s' ms).map fun r => (ts ++ r.1, r.2) := by
  induction ls generalizing s ts with
  | nil =>
    cases h
    simp
  | cons l ls ih =>
    cases hstep : s.step l with
    | none   => simp [process, hstep] at h
    | some r =>
      obtain ⟨us, s₁⟩ := r
      rw [process_cons hstep, Option.map_eq_some_iff] at h
      obtain ⟨⟨vs, s₂⟩, hls, heq⟩ := h
      cases heq
      rw [List.cons_append, process_cons hstep, ih hls, Option.map_map]
      simp [Function.comp_def]

section Conditions

variable {M M' M'' : Symbols} {b : Branch} {bs : List Branch} {expected : Bool} {symbol : String}
  {ls ms : List Line} {ts us : List Token}

lemma isLive_cons (M : Symbols) (b : Branch) (bs : List Branch) :
    State.isLive ⟨M, b :: bs⟩ = (b.holds && State.isLive ⟨M, bs⟩) := rfl

/-- Lines between the start and the end of a condition are read under this condition. -/
lemma process_cond (hb : b = ⟨M symbol == expected, false⟩)
    (h : process ⟨M, b :: bs⟩ ls = some (ts, ⟨M', b :: bs⟩)) :
    process ⟨M, bs⟩ (Line.test expected symbol :: ls ++ [Line.endIf]) = some (ts, ⟨M', bs⟩) := by
  subst hb
  rw [List.cons_append, process_cons rfl, process_append h, process_cons rfl]
  simp

/-- Where a condition is divided, the lines behind the division are read under its opposite. -/
lemma process_choice (hb : b = ⟨M symbol == expected, false⟩)
    (hls : process ⟨M, b :: bs⟩ ls = some (ts, ⟨M', b :: bs⟩))
    (hms : process ⟨M', ⟨!b.holds, true⟩ :: bs⟩ ms = some (us, ⟨M'', ⟨!b.holds, true⟩ :: bs⟩)) :
    process ⟨M, bs⟩ (Line.test expected symbol :: ls ++ Line.otherwise :: ms ++ [Line.endIf]) =
      some (ts ++ us, ⟨M'', bs⟩) := by
  subst hb
  rw [List.cons_append, List.cons_append, List.append_assoc, process_cons rfl, process_append hls,
    List.cons_append, process_cons rfl, process_append hms, process_cons rfl]
  simp

/-- Nothing is kept where a condition does not hold, and nothing is defined. -/
lemma process_of_not_isLive (h : Nested ls) (hbs : State.isLive ⟨M, bs⟩ = false) :
    process ⟨M, bs⟩ ls = some ([], ⟨M, bs⟩) := by
  have hdead : ∀ {bs}, State.isLive ⟨M, bs⟩ = false → ∀ b, State.isLive ⟨M, b :: bs⟩ = false :=
    fun hbs b => by rw [isLive_cons, hbs, Bool.and_false]
  induction h generalizing bs with
  | nil => rfl
  | @line l h =>
    cases l with
    | test _ _ | otherwise | endIf        => cases h
    | code _ | define _ | error | neutral => simp [process, State.step, hbs]
  | append _ _ ihls ihms =>
    rw [process_append (ihls hbs), ihms hbs]
    rfl
  -- a condition that is started here cannot hold either
  | cond _ ih => exact process_cond rfl (ih (hdead hbs _))
  | choice _ _ ihls ihms => exact process_choice rfl (ihls (hdead hbs _)) (ihms (hdead hbs _))

end Conditions

/-- Where all conditions hold, these tokens are kept of some lines, and then these symbols are
defined. -/
def Keeps (M : Symbols) (ls : List Line) (ts : List Token) (M' : Symbols) : Prop :=
  ∀ bs, State.isLive ⟨M, bs⟩ = true → process ⟨M, bs⟩ ls = some (ts, ⟨M', bs⟩)

namespace Keeps

variable {M M' M'' : Symbols} {ls ms : List Line} {ts us : List Token} {expected : Bool}
  {symbol : String}

lemma nil (M : Symbols) : Keeps M [] [] M := fun _ _ => rfl

lemma code (M : Symbols) (ts : List Token) : Keeps M [.code ts] ts M := by
  intro bs hbs
  simp [process, State.step, hbs]

lemma neutral (M : Symbols) : Keeps M [.neutral] [] M := fun _ _ => rfl

lemma define (M : Symbols) (symbol : String) :
    Keeps M [.define symbol] [] (Function.update M symbol true) := by
  intro bs hbs
  simp [process, State.step, hbs]

lemma append (hls : Keeps M ls ts M') (hms : Keeps M' ms us M'') :
    Keeps M (ls ++ ms) (ts ++ us) M'' := by
  intro bs hbs
  rw [process_append (hls bs hbs), hms bs hbs]
  rfl

lemma cond (h : M symbol = expected) (hls : Keeps M ls ts M') :
    Keeps M (Line.test expected symbol :: ls ++ [Line.endIf]) ts M' := by
  intro bs hbs
  have hlive : State.isLive ⟨M, ⟨M symbol == expected, false⟩ :: bs⟩ = true := by
    simp [isLive_cons, h, hbs]
  exact process_cond rfl (hls _ hlive)

lemma cond_of_ne (h : M symbol ≠ expected) (hls : Nested ls) :
    Keeps M (Line.test expected symbol :: ls ++ [Line.endIf]) [] M := by
  intro bs hbs
  have hdead : State.isLive ⟨M, ⟨M symbol == expected, false⟩ :: bs⟩ = false := by
    simp [isLive_cons, h]
  exact process_cond rfl (process_of_not_isLive hls hdead)

lemma choice (h : M symbol = expected) (hls : Keeps M ls ts M') (hms : Nested ms) :
    Keeps M (Line.test expected symbol :: ls ++ Line.otherwise :: ms ++ [Line.endIf]) ts M' := by
  intro bs hbs
  have hlive : State.isLive ⟨M, ⟨M symbol == expected, false⟩ :: bs⟩ = true := by
    simp [isLive_cons, h, hbs]
  have hdead : State.isLive ⟨M', ⟨!(M symbol == expected), true⟩ :: bs⟩ = false := by
    simp [isLive_cons, h]
  have hread := process_choice rfl (hls _ hlive) (process_of_not_isLive hms hdead)
  rwa [List.append_nil] at hread

lemma choice_of_ne (h : M symbol ≠ expected) (hls : Nested ls) (hms : Keeps M ms us M') :
    Keeps M (Line.test expected symbol :: ls ++ Line.otherwise :: ms ++ [Line.endIf]) us M' := by
  intro bs hbs
  have hdead : State.isLive ⟨M, ⟨M symbol == expected, false⟩ :: bs⟩ = false := by
    simp [isLive_cons, h]
  have hlive : State.isLive ⟨M, ⟨!(M symbol == expected), true⟩ :: bs⟩ = true := by
    simpa [isLive_cons, h] using hbs
  exact process_choice rfl (process_of_not_isLive hls hdead) (hms _ hlive)

/-- All lines of code are kept. -/
lemma map_code (M : Symbols) (tss : List (List Token)) :
    Keeps M (tss.map .code) tss.flatten M := by
  induction tss with
  | nil => exact nil M
  | cons ts tss ih => exact (code M ts).append ih

/-- What is kept of lines that are a whole text is the outcome of preprocessing. -/
lemma preprocess_eq (h : Keeps M ls ts M') : preprocess M ls = some ts := by
  simp [preprocess, h [] rfl]

end Keeps

/-! ### The lines of a text -/

/-- Some text is read as these lines, whatever follows it. -/
def Reads (text : List String) (ls : List Line) : Prop :=
  ∀ cs, readLines ((joinLines text).toList ++ cs) = (readLines cs).map (ls ++ ·)

namespace Reads

variable {L K : List String} {ls ms : List Line}

lemma nil : Reads [] [] := fun cs => by simp

lemma append (hL : Reads L ls) (hK : Reads K ms) : Reads (L ++ K) (ls ++ ms) := by
  intro cs
  rw [joinLines_append, String.toList_append, List.append_assoc, hL, hK, Option.map_map]
  simp [Function.comp_def]

/-- Text whose tokens end with the only newline among them is one line. -/
lemma of_readTokens (ts : List Token) {l : Line}
    (h : ∀ cs, readTokens ((joinLines L).toList ++ cs) =
      (readTokens cs).map (ts ++ .newline :: ·))
    (hts : .newline ∉ ts) (hl : Line.ofTokens? ts = some l) : Reads L [l] := by
  intro cs
  rw [readLines, readLines, h]
  cases readTokens cs with
  | none    => rfl
  | some us =>
    change ((ts ++ .newline :: us).splitOn .newline).mapM Line.ofTokens? =
      ((us.splitOn .newline).mapM Line.ofTokens?).map ([l] ++ ·)
    rw [List.splitOn_append_cons_self_of_not_mem hts, List.mapM_cons, hl]
    cases (us.splitOn .newline).mapM Line.ofTokens? <;> rfl

/-- A line that is read by itself. -/
lemma line {x : String} (ts : List Token) {l : Line} (hx : Segment (x ++ "\n") (ts ++ [.newline]))
    (hts : .newline ∉ ts) (hl : Line.ofTokens? ts = some l) : Reads [x] [l] := by
  refine of_readTokens ts (fun cs => ?_) hts hl
  simpa using hx.readTokens_append cs

/-- A fixed line can be checked. -/
lemma of_chars {cs : List Char} {l : Line} (h : decide ('\\' ∉ cs ++ ['\n'] ∧
    run (.code []) (cs ++ ['\n']) =
      ((run (.code []) (cs ++ ['\n'])).1.dropLast ++ [.newline], .code []) ∧
    .newline ∉ (run (.code []) (cs ++ ['\n'])).1.dropLast ∧
    Line.ofTokens? (run (.code []) (cs ++ ['\n'])).1.dropLast = some l) = true) :
    Reads [String.ofList cs] [l] := by
  obtain ⟨hplain, hrun, hnewline, hl⟩ := of_decide_eq_true h
  have hcs : (String.ofList cs ++ "\n").toList = cs ++ ['\n'] := by simp
  exact line _ ⟨hcs ▸ hplain, hcs ▸ hrun⟩ hnewline hl

lemma code {x : String} {ts : List Token} (hx : Segment (x ++ "\n") (ts ++ [.newline]))
    (hts : .newline ∉ ts) (hcode : Line.ofTokens? ts = some (.code ts)) : Reads [x] [.code ts] :=
  .line ts hx hts hcode

/-- Nothing follows a whole text. -/
lemma lines_eq (h : Reads L ls) : lines (joinLines L) = some (ls ++ [.code []]) := by
  have hls := h []
  rwa [List.append_nil] at hls

end Reads

end Reading

end ShaderHeader
