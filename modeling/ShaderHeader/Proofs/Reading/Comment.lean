import ShaderHeader.Proofs.Reading.Preprocess

/-!
# Comments

A block comment ends where a star is directly followed by a slash. The lines of a source text are
indented, so none of them starts with a slash, and a text without the end of a comment stays inside
of the comment that shows it, also where a backslash joins its lines.
-/

namespace ShaderHeader

namespace Reading

/-- The reader is in a block comment, where it keeps nothing. -/
def Mode.InComment (m : Mode) : Prop :=
  m = .block ∨ m = .star

/-- A line that does not end the comment that it is in. -/
structure CommentLine (l : String) : Prop where
  newline : '\n' ∉ l.toList
  closing : ¬ ['*', '/'] <:+: l.toList
  head : l.toList.head? ≠ some '/'

lemma CommentLine.of_notMem {l : String} (hnewline : '\n' ∉ l.toList) (hstar : '*' ∉ l.toList)
    (hhead : l.toList.head? ≠ some '/') : CommentLine l :=
  ⟨hnewline, fun h => hstar (h.subset List.mem_cons_self), hhead⟩

/-- A star is the only character after which a slash would end the comment. -/
lemma run_comment {m : Mode} {cs : List Char} (hm : m.InComment) (h : ¬ ['*', '/'] <:+: cs)
    (hhead : m = .star → cs.head? ≠ some '/') : ∃ m', m'.InComment ∧ run m cs = ([], m') := by
  induction cs generalizing m with
  | nil => exact ⟨m, hm, rfl⟩
  | cons c cs ih =>
    have hstep : step m c = ([], if c = '*' then .star else .block) := by
      rcases hm with rfl | rfl
      · rfl
      · have hc : c ≠ '/' := by simpa using hhead rfl
        simp [step, hc]
    have hnext : (if c = '*' then Mode.star else .block).InComment := by
      split_ifs
      · exact .inr rfl
      · exact .inl rfl
    -- behind a star there is no slash, as both would be the end of the comment
    have hhead : (if c = '*' then Mode.star else .block) = .star → cs.head? ≠ some '/' := by
      intro hstar hcs
      have hc : c = '*' := by
        by_contra hc
        simp [hc] at hstar
      obtain ⟨ds, rfl⟩ := List.head?_eq_some_iff.mp hcs
      exact h ⟨[], ds, by rw [hc]; rfl⟩
    obtain ⟨m', hm', hrun⟩ := ih hnext (fun hcs => h (List.infix_cons_iff.mpr (.inr hcs))) hhead
    exact ⟨m', hm', by rw [run, hstep, hrun]; rfl⟩

lemma run_block_word {w : String} (h : IsWord w) (cs : List Char) :
    run .block (w.toList ++ cs) = run .block cs := by
  refine @run_taken (fun _ => .block) _ (fun c hc _ => ?_) [] cs
  have hstar : c ≠ '*' := by
    rintro rfl
    exact absurd (h _ hc) (by decide)
  rw [step, if_neg hstar]

/-- The end of a line is a newline, or it goes with the backslash in front of it. -/
lemma splice_line {l : List Char} (h : '\n' ∉ l) (cs : List Char) :
    splice (l ++ '\n' :: cs) = l ++ '\n' :: splice cs ∨
      ∃ l', l = l' ++ ['\\'] ∧ splice (l ++ '\n' :: cs) = l' ++ splice cs := by
  induction l with
  | nil => exact .inl (by simp [splice])
  | cons c l ih =>
    obtain ⟨hc, hl⟩ := not_or.mp (mt List.mem_cons.mpr h)
    by_cases hjoin : c = '\\' ∧ l = []
    · -- the last character is a backslash: it goes with the newline
      obtain ⟨rfl, rfl⟩ := hjoin
      exact .inr ⟨[], rfl, by simp [splice]⟩
    · -- any other character stays, also a backslash that is not the last one
      have hcons : splice (c :: (l ++ '\n' :: cs)) = c :: splice (l ++ '\n' :: cs) := by
        rw [splice]
        rintro ds rfl heq
        cases l with
        | nil      => exact hjoin ⟨rfl, rfl⟩
        | cons d l =>
          obtain ⟨rfl, -⟩ := List.cons.inj heq
          exact hl List.mem_cons_self
      rcases ih hl with hline | ⟨l', rfl, hline⟩
      · exact .inl (by rw [List.cons_append, hcons, hline, List.cons_append])
      · exact .inr ⟨c :: l', rfl, by rw [List.cons_append, hcons, hline, List.cons_append]⟩

/-- The reader is still in the comment at the start of the next line. -/
lemma CommentLine.run_eq {l : String} (h : CommentLine l) {m : Mode} (hm : m.InComment)
    (cs : List Char) :
    ∃ m', m'.InComment ∧ run m (splice ((l ++ "\n").toList ++ cs)) = run m' (splice cs) := by
  have hcs : (l ++ "\n").toList ++ cs = l.toList ++ '\n' :: cs := by simp
  rw [hcs]
  rcases splice_line h.newline cs with hline | ⟨l', hl, hline⟩
  · obtain ⟨m₁, hm₁, hrun⟩ := run_comment hm h.closing fun _ => h.head
    refine ⟨.block, .inl rfl, ?_⟩
    rw [hline, run_append, hrun]
    rcases hm₁ with rfl | rfl <;> simp [run, step]
  · -- the backslash takes the newline away, and the next line follows directly
    have hclosing : ¬ ['*', '/'] <:+: l' := fun hclose =>
      h.closing (hl ▸ hclose.trans (List.prefix_append _ _).isInfix)
    obtain ⟨m₁, hm₁, hrun⟩ := run_comment hm hclosing fun _ hhead => h.head (by simp [hl, hhead])
    refine ⟨m₁, hm₁, ?_⟩
    rw [hline, run_append, hrun]
    rfl

/-- Inside of a comment, everything up to its end is left out. -/
lemma run_commentLines {L : List String} (h : ∀ l ∈ L, CommentLine l) {m : Mode}
    (hm : m.InComment) (cs : List Char) :
    run m (splice ((joinLines (L ++ ["*/"])).toList ++ cs)) =
      (.newline :: (run (.code []) (splice cs)).1, (run (.code []) (splice cs)).2) := by
  induction L generalizing m with
  | nil =>
    have hclose : '\\' ∉ (joinLines ([] ++ ["*/"])).toList := by decide
    rw [splice_append hclose]
    rcases hm with rfl | rfl <;> rfl
  | cons l L ih =>
    obtain ⟨hl, hL⟩ := List.forall_mem_cons.mp h
    rw [List.cons_append, joinLines_cons, String.toList_append, List.append_assoc]
    obtain ⟨m', hm', hrun⟩ := hl.run_eq hm ((joinLines (L ++ ["*/"])).toList ++ cs)
    rw [hrun, ih hL hm']

/-- A comment is read as one empty line. -/
lemma Reads.comment {L : List String} (h : ∀ l ∈ L, CommentLine l) :
    Reads ("/*" :: L ++ ["*/"]) [.code []] := by
  refine .of_readTokens [] (fun cs => ?_) List.not_mem_nil rfl
  have hopen : '\\' ∉ ("/*" ++ "\n").toList := by decide
  have hrun : run (.code []) ("/*" ++ "\n").toList = ([], .block) := rfl
  rw [List.cons_append, joinLines_cons, String.toList_append, List.append_assoc, readTokens,
    splice_append hopen, run_append, hrun, run_commentLines h (.inl rfl)]
  simp [readTokens, Function.comp_def]

/-! ### Source text -/

/-- The pieces of a list have no separator and are found in the list, the first one at its start. -/
lemma splitOn_spec {α : Type} [DecidableEq α] (a : α) (as : List α) :
    ∃ p ps, as.splitOn a = p :: ps ∧ p <+: as ∧ ∀ q ∈ p :: ps, a ∉ q ∧ q <:+: as := by
  induction as with
  | nil => exact ⟨[], [], rfl, List.nil_prefix, by simp⟩
  | cons b as ih =>
    obtain ⟨p, ps, hsplit, hprefix, hpieces⟩ := ih
    rw [List.splitOn_cons_eq_if_modifyHead, hsplit]
    split_ifs with hb
    · refine ⟨[], p :: ps, rfl, List.nil_prefix, List.forall_mem_cons.mpr ⟨by simp, ?_⟩⟩
      intro q hq
      exact ⟨(hpieces q hq).1, List.infix_cons_iff.mpr (.inr (hpieces q hq).2)⟩
    · have hne : a ≠ b := fun heq => hb (by simp [heq])
      have hcons : b :: p <+: b :: as := List.prefix_cons_inj b |>.mpr hprefix
      obtain ⟨hp, hps⟩ := List.forall_mem_cons.mp hpieces
      refine ⟨b :: p, ps, rfl, hcons, List.forall_mem_cons.mpr ⟨⟨?_, hcons.isInfix⟩, ?_⟩⟩
      · simp [hne, hp.1]
      · intro q hq
        exact ⟨(hps q hq).1, List.infix_cons_iff.mpr (.inr (hps q hq).2)⟩

lemma dropReturn_prefix (l : List Char) : dropReturn l <+: l := by
  unfold dropReturn
  split_ifs
  · exact List.dropLast_prefix l
  · exact List.prefix_refl l

lemma textLines_spec {text l : String} (h : l ∈ textLines text) :
    '\n' ∉ l.toList ∧ l.toList <:+: text.toList := by
  obtain ⟨p, ps, hsplit, -, hpieces⟩ := splitOn_spec '\n' text.toList
  obtain ⟨x, hx, rfl⟩ := List.mem_map.mp h
  rw [String.toList_ofList]
  rw [hsplit] at hx
  rcases List.mem_append.mp hx with hended | hrest
  · obtain ⟨y, hy, rfl⟩ := List.mem_map.mp hended
    obtain ⟨hnewline, hinfix⟩ := hpieces y (List.dropLast_subset _ hy)
    have hdrop := dropReturn_prefix y
    exact ⟨fun hmem => hnewline (hdrop.subset hmem), hdrop.isInfix.trans hinfix⟩
  · have hlast := (List.mem_filter.mp hrest).1
    exact hpieces x (List.mem_of_getLast? (Option.mem_toList.mp hlast))

/-- A source text can be shown in a comment if it does not have the end of one. -/
lemma reads_commentLines {text : String} (h : ¬ ['*', '/'] <:+: text.toList) :
    Reads (commentLines text) [.code []] := by
  apply Reads.comment
  intro l hl
  obtain ⟨x, hx, rfl⟩ := List.mem_map.mp hl
  obtain ⟨hnewline, hinfix⟩ := textLines_spec hx
  refine ⟨by simp [hnewline], fun hclose => h ?_, by simp⟩
  have : ['*', '/'] <:+: x.toList := by
    simpa [List.infix_cons_iff] using hclose
  exact this.trans hinfix

end Reading

end ShaderHeader
