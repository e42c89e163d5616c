import Mathlib.Tactic.Common
import ShaderHeader.Text.Draft

/-!
# Reading C

What a header means is decided by a C compiler, and the first steps of the compiler are followed
here: a backslash joins two lines, comments are left out, and the rest is split into tokens.

Text is read character by character, so pieces can be read one after another. `Segment` says which
tokens are read from a piece that starts and ends between two words.
-/

namespace ShaderHeader

namespace Reading

/-! ### Tokens -/

/-- The characters of identifiers and numbers. -/
def isWordChar (c : Char) : Bool :=
  c.isAlphanum || c = '_'

/-- What a text consists of. Words are identifiers, keywords and numbers. -/
inductive Token
  | word (text : String)
  | literal (quote : Char) (text : String)
  | symbol (text : String)
  | newline
  deriving DecidableEq

/-- Where the reader is: in code, with the word that it is reading, behind a character that may be
the first of two, in a literal, or in a comment. A literal that is not closed on its line breaks
the text. -/
inductive Mode
  | code (word : List Char)
  | slash
  | equal
  | literal (quote : Char) (text : List Char)
  | escape (quote : Char) (text : List Char)
  | broken
  | block
  | star
  | line
  deriving DecidableEq

/-- The word that has been read, if there is one. -/
def flush (word : List Char) : List Token :=
  if word = [] then [] else [.word (String.ofList word)]

/-- Reads a character that does not continue what stands in front of it. -/
def start (c : Char) : List Token × Mode :=
  if isWordChar c then ([], .code [c])
  else if c = '\n' then ([.newline], .code [])
  else if c.isWhitespace then ([], .code [])
  else if c = '/' then ([], .slash)
  else if c = '=' then ([], .equal)
  else if c = '"' ∨ c = '\'' then ([], .literal c [])
  else ([.symbol (String.singleton c)], .code [])

/-- Reads one character. -/
def step : Mode → Char → List Token × Mode
  | .code word, c         =>
    if isWordChar c then ([], .code (word ++ [c])) else (flush word ++ (start c).1, (start c).2)
  | .slash, c             =>
    if c = '*' then ([], .block)
    else if c = '/' then ([], .line)
    else (.symbol "/" :: (start c).1, (start c).2)
  | .equal, c             =>
    if c = '=' then ([.symbol "=="], .code []) else (.symbol "=" :: (start c).1, (start c).2)
  | .literal quote text, c =>
    if c = quote then ([.literal quote (String.ofList text)], .code [])
    else if c = '\n' then ([], .broken)
    else if c = '\\' then ([], .escape quote text)
    else ([], .literal quote (text ++ [c]))
  | .escape quote text, c =>
    if c = '\n' then ([], .broken) else ([], .literal quote (text ++ ['\\', c]))
  | .broken, _            => ([], .broken)
  | .block, c             => ([], if c = '*' then .star else .block)
  | .star, c              =>
    ([], if c = '/' then .code [] else if c = '*' then .star else .block)
  | .line, c              => if c = '\n' then ([.newline], .code []) else ([], .line)

/-- Reads some characters. -/
def run : Mode → List Char → List Token × Mode
  | m, []      => ([], m)
  | m, c :: cs => ((step m c).1 ++ (run (step m c).2 cs).1, (run (step m c).2 cs).2)

/-- What is left at the end of a text. A text does not end inside of a literal or a comment. -/
def Mode.finish : Mode → Option (List Token)
  | code word => some (flush word)
  | slash     => some [.symbol "/"]
  | equal     => some [.symbol "="]
  | line      => some []
  | _         => none

/-- Joins a line that ends in a backslash with the next one. -/
def splice : List Char → List Char
  | '\\' :: '\n' :: cs => splice cs
  | c :: cs            => c :: splice cs
  | []                 => []

/-- The tokens of some characters. -/
def readTokens (cs : List Char) : Option (List Token) :=
  let (ts, m) := run (.code []) (splice cs)
  m.finish.map (ts ++ ·)

/-- The tokens of a text. -/
def tokens (text : String) : Option (List Token) :=
  readTokens text.toList

/-! ### Pieces of a text -/

@[simp] lemma run_nil (m : Mode) : run m [] = ([], m) := rfl

lemma run_append (m : Mode) (cs ds : List Char) :
    run m (cs ++ ds) = ((run m cs).1 ++ (run (run m cs).2 ds).1, (run (run m cs).2 ds).2) := by
  induction cs generalizing m with
  | nil => rfl
  | cons c cs ih => simp [run, ih]

/-- Characters that a mode takes in one by one are taken in one after the other. -/
lemma run_taken {mode : List Char → Mode} {ds : List Char}
    (h : ∀ c ∈ ds, ∀ taken, step (mode taken) c = ([], mode (taken ++ [c])))
    (taken cs : List Char) : run (mode taken) (ds ++ cs) = run (mode (taken ++ ds)) cs := by
  induction ds generalizing taken with
  | nil => rw [List.nil_append, List.append_nil]
  | cons d ds ih =>
    obtain ⟨hd, hds⟩ := List.forall_mem_cons.mp h
    simp [run, hd taken, ih hds]

/-- What follows a text without backslashes is spliced by itself. -/
lemma splice_append {cs : List Char} (h : '\\' ∉ cs) (ds : List Char) :
    splice (cs ++ ds) = cs ++ splice ds := by
  induction cs with
  | nil => rfl
  | cons c cs ih =>
    obtain ⟨hc, hcs⟩ := not_or.mp (mt List.mem_cons.mpr h)
    rw [List.cons_append, splice, ih hcs, List.cons_append]
    rintro _ rfl
    exact absurd rfl hc

/-- A piece of text that starts and ends between two words, and its tokens. -/
structure Segment (text : String) (ts : List Token) : Prop where
  plain : '\\' ∉ text.toList
  run_eq : run (.code []) text.toList = (ts, .code [])

namespace Segment

variable {x y : String} {ts us : List Token}

lemma append (hx : Segment x ts) (hy : Segment y us) : Segment (x ++ y) (ts ++ us) := by
  constructor
  · simp [hx.plain, hy.plain]
  · simp [run_append, hx.run_eq, hy.run_eq]

lemma join {α : Type} {text : α → String} {toks : α → List Token} {as : List α}
    (h : ∀ a ∈ as, Segment (text a) (toks a)) :
    Segment (String.join (as.map text)) (as.flatMap toks) := by
  induction as with
  | nil => exact ⟨by simp, by simp⟩
  | cons a as ih =>
    obtain ⟨ha, has⟩ := List.forall_mem_cons.mp h
    simpa using ha.append (ih has)

/-- The tokens of a segment come in front of those of the rest. -/
lemma readTokens_append (hx : Segment x ts) (cs : List Char) :
    readTokens (x.toList ++ cs) = (readTokens cs).map (ts ++ ·) := by
  simp [readTokens, splice_append hx.plain, run_append, hx.run_eq, Function.comp_def]

lemma tokens_eq (hx : Segment x ts) : tokens x = some ts := by
  have h := hx.readTokens_append []
  simpa [tokens, readTokens, splice, run, Mode.finish, flush] using h

end Segment

/-! ### Words -/

/-- A text of word characters only. It is the empty text or a single word. -/
def IsWord (s : String) : Prop :=
  ∀ c ∈ s.toList, isWordChar c = true

instance (s : String) : Decidable (IsWord s) :=
  List.decidableBAll (fun c => isWordChar c = true) s.toList

/-- A fixed text can be checked. -/
lemma IsWord.of_chars {cs : List Char} (h : cs.all isWordChar = true) :
    IsWord (String.ofList cs) := by
  rw [IsWord, String.toList_ofList]
  exact List.all_eq_true.mp h

lemma IsWord.append {x y : String} (hx : IsWord x) (hy : IsWord y) : IsWord (x ++ y) := by
  intro c hc
  rw [String.toList_append, List.mem_append] at hc
  exact hc.elim (hx c) (hy c)

/-- An identifier is a word that does not start with a digit. -/
def IsIdentifier (s : String) : Prop :=
  IsWord s ∧ s.toList.head?.any (fun c => !c.isDigit) = true

instance (s : String) : Decidable (IsIdentifier s) :=
  inferInstanceAs (Decidable (IsWord s ∧ _))

/-- The tokens of a word, as the empty text is none. -/
def wordTokens (s : String) : List Token :=
  flush s.toList

@[simp] lemma flush_nil : flush [] = [] := rfl

@[simp] lemma flush_cons (c : Char) (cs : List Char) :
    flush (c :: cs) = [.word (String.ofList (c :: cs))] := rfl

@[simp] lemma flush_toList (s : String) : flush s.toList = wordTokens s := rfl

@[simp] lemma wordTokens_empty : wordTokens "" = [] := rfl

lemma wordTokens_of_ne {s : String} (h : s ≠ "") : wordTokens s = [.word s] := by
  have hs : s.toList ≠ [] := fun hs => h (String.toList_eq_nil_iff.mp hs)
  simp [wordTokens, flush, hs]

@[simp] lemma mem_wordTokens {s : String} {t : Token} :
    t ∈ wordTokens s ↔ s ≠ "" ∧ t = .word s := by
  by_cases h : s = ""
  · simp [h]
  · simp [wordTokens_of_ne h, h]

/-- An identifier is a single word. -/
lemma IsIdentifier.ne_empty {s : String} (h : IsIdentifier s) : s ≠ "" := by
  rintro rfl
  exact absurd h.2 (by decide)

lemma isWord_repr (n : Nat) : IsWord (Nat.repr n) := by
  intro c hc
  rw [Nat.toList_repr] at hc
  have hdigit := Nat.isDigit_of_mem_toDigits (by decide) (by decide) hc
  simp [isWordChar, Char.isAlphanum, hdigit]

@[simp] lemma wordTokens_repr (n : Nat) : wordTokens n.repr = [.word n.repr] :=
  wordTokens_of_ne Nat.repr_ne_empty

/-- The value of a number in decimal notation. -/
def number? (s : String) : Option Nat :=
  if s ≠ "" ∧ s.toList.all Char.isDigit then some (Nat.ofDigitChars 10 s.toList 0) else none

@[simp] lemma number?_repr (n : Nat) : number? n.repr = some n := by
  have hdigits : (Nat.toDigits 10 n).all Char.isDigit := List.all_eq_true.mpr fun c hc =>
    Nat.isDigit_of_mem_toDigits (by decide) (by decide) hc
  have hvalue : Nat.ofDigitChars 10 (Nat.toDigits 10 n) 0 = n :=
    Nat.ofDigitChars_toDigits (by decide) (by decide)
  rw [number?, Nat.toList_repr, if_pos ⟨Nat.repr_ne_empty, hdigits⟩, hvalue]

/-- A number has one decimal notation only. -/
lemma repr_injective : Function.Injective Nat.repr := by
  intro m n h
  simpa using congrArg number? h

lemma IsWord.notMem {w : String} (h : IsWord w) {c : Char} (hc : isWordChar c = false) :
    c ∉ w.toList := by
  intro hmem
  rw [h c hmem] at hc
  cases hc

/-- No word has a backslash. -/
lemma IsWord.plain {w : String} (h : IsWord w) : '\\' ∉ w.toList :=
  h.notMem (by decide)

lemma run_word {w : String} (h : IsWord w) (word cs : List Char) :
    run (.code word) (w.toList ++ cs) = run (.code (word ++ w.toList)) cs := by
  refine run_taken (fun c hc taken => ?_) word cs
  rw [step, if_pos (h c hc)]

/-- A text that neither ends the string literal that it is in nor escapes a character. -/
def IsQuotable (s : String) : Prop :=
  ∀ c ∈ s.toList, c ≠ '"' ∧ c ≠ '\n' ∧ c ≠ '\\'

instance (s : String) : Decidable (IsQuotable s) :=
  List.decidableBAll (fun c => c ≠ '"' ∧ c ≠ '\n' ∧ c ≠ '\\') s.toList

lemma IsQuotable.notMem_quote {s : String} (h : IsQuotable s) : '"' ∉ s.toList :=
  fun hquote => (h _ hquote).1 rfl

lemma IsQuotable.notMem_newline {s : String} (h : IsQuotable s) : '\n' ∉ s.toList :=
  fun hnewline => (h _ hnewline).2.1 rfl

lemma run_literal {s : String} (h : IsQuotable s) (text cs : List Char) :
    run (.literal '"' text) (s.toList ++ cs) = run (.literal '"' (text ++ s.toList)) cs := by
  refine run_taken (fun c hc taken => ?_) text cs
  obtain ⟨hquote, hnewline, hescape⟩ := h c hc
  rw [step, if_neg hquote, if_neg hnewline, if_neg hescape]

lemma IsWord.isQuotable {w : String} (h : IsWord w) : IsQuotable w := by
  intro c hc
  refine ⟨?_, ?_, ?_⟩ <;> rintro rfl <;> exact absurd (h _ hc) (by decide)

/-- A segment that does not start with a word may as well follow one. -/
lemma Segment.run_code {x : String} {ts : List Token} (hx : Segment x ts)
    (hhead : ∃ c ∈ x.toList.head?, isWordChar c = false) (word : List Char) :
    run (.code word) x.toList = (flush word ++ ts, .code []) := by
  obtain ⟨c, hc, hword⟩ := hhead
  have hrun := hx.run_eq
  cases hlist : x.toList with
  | nil => simp [hlist] at hc
  | cons d cs =>
    obtain rfl : d = c := by simpa [hlist] using hc
    simpa [hlist, run, step, hword, Prod.ext_iff] using hrun

/-- A text in an interpolation is this text. -/
@[simp] lemma toString_string (s : String) : toString s = s := rfl

end Reading

end ShaderHeader
