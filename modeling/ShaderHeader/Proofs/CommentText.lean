import ShaderHeader.Proofs.Reading.Comment

/-!
# The text of comments

A source text is shown in a block comment as it is. A star and a slash that meet in it end the
comment, and what follows them is read as code. Other texts stay inside: a star at the end of a line
does not meet the slash that starts the next one, because lines are indented, and a carriage return
is left out only at the end of a line.
-/

namespace ShaderHeader

/-! ### Pairs of characters -/

section Pairs

variable {α : Type} {x y sep : α}

/-- Two elements that meet are on the same side of what is neither of them. -/
lemma pair_infix_append_cons (hsep : sep ∉ [x, y]) {as bs : List α} :
    [x, y] <:+: as ++ sep :: bs ↔ [x, y] <:+: as ∨ [x, y] <:+: bs := by
  obtain ⟨hx, hy⟩ : x ≠ sep ∧ y ≠ sep := by simpa [eq_comm] using hsep
  induction as with
  | nil => simp [List.infix_cons_iff, hx]
  | cons a as ih =>
    have hhead : [y] <+: as ++ sep :: bs ↔ [y] <+: as := by
      cases as with
      | nil      => simp [hy]
      | cons _ _ => simp
    simp only [List.cons_append, List.infix_cons_iff, List.cons_prefix_cons, hhead, ih, or_assoc]

lemma pair_infix_intercalate (hsep : sep ∉ [x, y]) (pieces : List (List α)) :
    [x, y] <:+: [sep].intercalate pieces ↔ ∃ p ∈ pieces, [x, y] <:+: p := by
  induction pieces with
  | nil => simp
  | cons p pieces ih =>
    cases pieces with
    | nil      => simp
    | cons _ _ =>
      rw [List.intercalate_cons_cons, List.append_assoc, List.singleton_append,
        pair_infix_append_cons hsep, ih]
      simp

end Pairs

/-! ### Ends of comments -/

/-- Some characters have the end of a comment in them. -/
def Closes (cs : List Char) : Prop :=
  ['*', '/'] <:+: cs

lemma not_closes {cs : List Char} (h : '*' ∉ cs) : ¬ Closes cs :=
  fun hcloses => h (hcloses.subset List.mem_cons_self)

lemma closes_append_cons {c : Char} (hc : c ∉ ['*', '/']) {as bs : List Char} :
    Closes (as ++ c :: bs) ↔ Closes as ∨ Closes bs :=
  pair_infix_append_cons hc

lemma closes_dropReturn (l : List Char) : Closes (dropReturn l) ↔ Closes l := by
  unfold dropReturn
  split_ifs with hlast
  · obtain ⟨l', rfl⟩ := List.getLast?_eq_some_iff.mp hlast
    rw [List.dropLast_concat, closes_append_cons (by decide), or_iff_left (not_closes (by decide))]
  · rfl

lemma exists_closes_textLines (text : String) :
    (∃ l ∈ textLines text, Closes l.toList) ↔ Closes text.toList := by
  obtain ⟨ps, p, hpieces⟩ : ∃ ps p, text.toList.splitOn '\n' = ps ++ [p] :=
    ⟨_, _, (List.dropLast_concat_getLast (List.splitOn_ne_nil _ _)).symm⟩
  have hrest : (∃ l ∈ [p].filter (· ≠ []), Closes l) ↔ Closes p := by
    by_cases hp : p = []
    · simp [hp, Closes]
    · simp [hp]
  calc (∃ l ∈ textLines text, Closes l.toList)
    _ ↔ (∃ l ∈ ps.map dropReturn, Closes l) ∨ ∃ l ∈ [p].filter (· ≠ []), Closes l := by
      simp [textLines, hpieces, or_and_right, exists_or]
    _ ↔ (∃ l ∈ ps, Closes l) ∨ Closes p := by
      rw [hrest]
      simp [closes_dropReturn]
    _ ↔ ∃ l ∈ text.toList.splitOn '\n', Closes l := by
      simp [hpieces, or_and_right, exists_or]
    _ ↔ Closes text.toList := by
      -- the end of a comment has no newline, so it lies within one piece
      have hsep : '\n' ∉ ['*', '/'] := by decide
      have hjoin := pair_infix_intercalate hsep (text.toList.splitOn '\n')
      rw [List.intercalate_splitOn] at hjoin
      exact hjoin.symm

lemma closes_indented (L : List String) :
    Closes (joinLines (L.map ("    " ++ ·))).toList ↔ ∃ l ∈ L, Closes l.toList := by
  induction L with
  | nil => simp [Closes]
  | cons l L ih =>
    have htext : (joinLines ((l :: L).map ("    " ++ ·))).toList =
        [' ', ' ', ' '] ++
          ' ' :: (l.toList ++ '\n' :: (joinLines (L.map ("    " ++ ·))).toList) := by
      simp
    rw [htext, closes_append_cons (by decide), closes_append_cons (by decide),
      or_iff_right (not_closes (by decide)), ih]
    simp

/-! ### Block comments -/

/-- A text that consists of a comment and the newline behind it: the first end of a comment in it is
also its own end. -/
def IsBlockComment (text : String) : Prop :=
  ∃ inner, text.toList = '/' :: '*' :: inner ++ ['*', '/', '\n'] ∧
    ∀ before after, inner ++ ['*', '/', '\n'] = before ++ '*' :: '/' :: after → after = ['\n']

lemma isBlockComment_iff {text : String} {inner : List Char}
    (h : text.toList = '/' :: '*' :: inner ++ ['*', '/', '\n']) :
    IsBlockComment text ↔ ¬ Closes inner := by
  constructor
  · -- an end in between would be the first one, and leave the rest outside
    rintro ⟨inner', h', hfirst⟩ ⟨before, after, rfl⟩
    have heq : before ++ ['*', '/'] ++ after ++ ['*', '/', '\n'] = inner' ++ ['*', '/', '\n'] := by
      simpa [h] using h'
    obtain rfl := List.append_cancel_right heq
    have hafter := hfirst before (after ++ ['*', '/', '\n']) (by simp)
    simpa using congrArg List.length hafter
  · intro hcloses
    refine ⟨inner, h, fun before after heq => ?_⟩
    rcases List.append_eq_append_iff.mp heq with ⟨more, -, hmore⟩ | ⟨more, rfl, hmore⟩
    · -- an end that is found behind the text is the one that closes it
      rcases more with _ | ⟨_, more⟩
      · simpa using hmore.symm
      · have hstar : '*' ∈ ['/', '\n'] := by
          rw [(List.cons.inj hmore).2]
          simp
        exact absurd hstar (by decide)
    · -- an end that is found earlier lies in the text
      rcases more with _ | ⟨_, _ | ⟨_, rest⟩⟩
      · simpa using hmore
      · simp at hmore
      · obtain ⟨rfl, rfl, -⟩ : '*' = _ ∧ '/' = _ ∧ _ := by simpa using hmore
        exact absurd ⟨before, rest, by simp⟩ hcloses

lemma isBlockComment_commentLines (text : String) :
    IsBlockComment (joinLines (commentLines text)) ↔ ¬ Closes text.toList := by
  have htext : (joinLines (commentLines text)).toList =
      '/' :: '*' :: ('\n' :: (joinLines ((textLines text).map ("    " ++ ·))).toList) ++
        ['*', '/', '\n'] := by
    simp [commentLines]
  rw [isBlockComment_iff htext, ← List.nil_append ('\n' :: _), closes_append_cons (by decide),
    or_iff_right (not_closes (by decide)), closes_indented, exists_closes_textLines]

/-- A source text is in one block comment if and only if it has no end of a comment. The comment is
read as an empty line then, whatever is behind it. -/
theorem isBlockComment_iff_not_closes (text : String) :
    (IsBlockComment (joinLines (commentLines text)) ↔ ¬ Closes text.toList) ∧
      (¬ Closes text.toList → ∀ following,
        Reading.lines (joinLines (commentLines text ++ following)) =
          (Reading.lines (joinLines following)).map (.code [] :: ·)) := by
  refine ⟨isBlockComment_commentLines text, fun hcloses following => ?_⟩
  rw [joinLines_append, Reading.lines, String.toList_append]
  exact Reading.reads_commentLines hcloses _

namespace Sample

/-- A star, a slash at the start of the next line and a backslash at the end of it. -/
theorem isBlockComment_of_starred :
    IsBlockComment (joinLines (commentLines "a *\r\n/ b \\\n")) ∧
      Reading.lines (joinLines (commentLines "a *\r\n/ b \\\n" ++ ["#endif"])) =
        some [.code [], .endIf, .code []] := by
  obtain ⟨hcomment, hreads⟩ := isBlockComment_iff_not_closes "a *\r\n/ b \\\n"
  have hcloses : ¬ Closes "a *\r\n/ b \\\n".toList := by
    simp [Closes, List.infix_cons_iff]
  exact ⟨hcomment.mpr hcloses, hreads hcloses ["#endif"]⟩

end Sample

/-- A source text with a comment of its own is not in one block comment, and defines a symbol. -/
theorem exists_define_behind_comment :
    ¬ IsBlockComment (joinLines (commentLines "/* tint */\n#define X\n")) ∧
      Reading.lines (joinLines (commentLines "/* tint */\n#define X\n")) =
        some [.code [], .define "X", .code [.symbol "*", .symbol "/"], .code []] := by
  have hcloses : Closes "/* tint */\n#define X\n".toList :=
    ⟨"/* tint ".toList, "\n#define X\n".toList, rfl⟩
  exact ⟨fun hcomment => (isBlockComment_commentLines _).mp hcomment hcloses, by decide⟩

end ShaderHeader
