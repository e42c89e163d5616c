import ShaderHeader.Proofs.Embedding

/-!
# The text of byte arrays

The text of a byte table has a line that says how many bytes there are, rows of sixteen bytes, one
row with the rest of them, which may be empty, and a line that ends the array. `ShowsArray` says so
without the functions that write it. A text of this shape is read back by its lines, so it tells
everything about the bytes.
-/

namespace ShaderHeader

open Check Reading

/-! ### Lines -/

/-- Lines that have no newline in them are the pieces of the text that they are joined to. -/
lemma splitOn_joinLines {L : List String} (h : ∀ l ∈ L, '\n' ∉ l.toList) :
    (joinLines L).toList.splitOn '\n' = L.map String.toList ++ [[]] := by
  induction L with
  | nil => rfl
  | cons l L ih =>
    obtain ⟨hl, hL⟩ := List.forall_mem_cons.mp h
    have htext : (joinLines (l :: L)).toList = l.toList ++ '\n' :: (joinLines L).toList := by simp
    rw [htext, List.splitOn_append_cons_self_of_not_mem hl, ih hL, List.map_cons, List.cons_append]

/-! ### Literals -/

lemma hexDigit?_eq_some {c : Char} {n : Nat} (h : hexDigit? c = some n) :
    n < 16 ∧ c = Nat.digitChar n := by
  obtain ⟨hlt, hc, -⟩ := List.findIdx?_eq_some_iff_getElem.mp h
  have hdigits : ∀ m : Fin 16, "0123456789abcdef".toList[m] = Nat.digitChar m := by decide
  exact ⟨hlt, (of_decide_eq_true hc).symm.trans (hdigits ⟨n, hlt⟩)⟩

/-- The literal of a byte: `0x`, two hexadecimal digits in lower case, and a comma. -/
inductive IsLiteral : UInt8 → List Char → Prop
  | intro {b : UInt8} {high low : Char} {h l : Nat} (hhigh : hexDigit? high = some h)
    (hlow : hexDigit? low = some l) (hvalue : b.toNat = 16 * h + l) :
    IsLiteral b ['0', 'x', high, low, ',']

/-- A line with the literals of some bytes, one after the other, and nothing else but an indentation
in front of them. -/
def IsRow (bytes : List UInt8) (line : List Char) : Prop :=
  ∃ indent literals, line = List.replicate indent ' ' ++ List.flatten literals ∧
    List.Forall₂ IsLiteral bytes literals

lemma isLiteral_byteLiteral (b : UInt8) : IsLiteral b (byteLiteral b).toList := by
  have hlt := b.toNat_lt
  rw [byteLiteral, String.toList_ofList]
  apply IsLiteral.intro (hexDigit?_digitChar (by omega)) (hexDigit?_digitChar (by omega))
  omega

lemma isRow_rowLine (bytes : List UInt8) : IsRow bytes (rowLine bytes).toList := by
  cases bytes with
  | nil => exact ⟨0, [], rfl, .nil⟩
  | cons b bs =>
    refine ⟨4, (b :: bs).map fun b => (byteLiteral b).toList, ?_, ?_⟩
    · simp [rowLine, List.flatMap, Function.comp_def]
    · rw [List.forall₂_map_right_iff, List.forall₂_same]
      intro b _
      exact isLiteral_byteLiteral b

/-- There is one literal for each byte. -/
lemma IsLiteral.eq_byteLiteral {b : UInt8} {literal : List Char} (h : IsLiteral b literal) :
    literal = (byteLiteral b).toList := by
  obtain ⟨hhigh, hlow, hvalue⟩ := h
  obtain ⟨hh, rfl⟩ := hexDigit?_eq_some hhigh
  obtain ⟨hl, rfl⟩ := hexDigit?_eq_some hlow
  rw [byteLiteral, String.toList_ofList, hvalue, Nat.mul_add_div (by decide),
    Nat.div_eq_of_lt hl, Nat.mul_add_mod, Nat.mod_eq_of_lt hl, Nat.add_zero]

lemma IsLiteral.notMem {b : UInt8} {literal : List Char} (h : IsLiteral b literal) :
    '\n' ∉ literal := by
  obtain ⟨hhigh, hlow, -⟩ := h
  have hdigit : ∀ c n, hexDigit? c = some n → '\n' ≠ c := by
    rintro c n hc rfl
    cases hc
  simp [hdigit _ _ hhigh, hdigit _ _ hlow]

/-- The literals of a row tell which bytes it has. -/
lemma IsRow.bytes?_eq {bytes : List UInt8} {line : List Char} (h : IsRow bytes line) :
    bytes? (line.dropWhile (· = ' ')) = some bytes := by
  obtain ⟨indent, literals, rfl, hliterals⟩ := h
  have hrow : bytes? literals.flatten = some bytes ∧
      literals.flatten.dropWhile (· = ' ') = literals.flatten := by
    induction hliterals with
    | nil => exact ⟨rfl, rfl⟩
    | @cons b literal bytes literals hliteral _ ih =>
      constructor
      · rw [List.flatten_cons, hliteral.eq_byteLiteral,
          bytes?_byteLiteral_append, ih.1, Option.map_some]
      · obtain ⟨-, -, -⟩ := hliteral
        simp
  rw [List.dropWhile_append_of_pos (by simp), hrow.2, hrow.1]

lemma IsRow.notMem {bytes : List UInt8} {line : List Char} (h : IsRow bytes line) :
    '\n' ∉ line := by
  obtain ⟨indent, literals, rfl, hliterals⟩ := h
  intro hmem
  rcases List.mem_append.mp hmem with hmem | hmem
  · cases List.eq_of_mem_replicate hmem
  · obtain ⟨literal, hliteral, hnewline⟩ := List.mem_flatten.mp hmem
    obtain ⟨b, -, hb⟩ := exists_mem_of_forall₂ hliterals hliteral
    exact hb.notMem hnewline

/-- A row is not the line that ends an array. -/
lemma IsRow.ne_end {bytes : List UInt8} {line : List Char} (h : IsRow bytes line) :
    line ≠ "\x7d;".toList := by
  rintro rfl
  have hread := h.bytes?_eq
  cases hread

/-! ### Rows -/

/-- All rows are full but the last one, which has the rest of the bytes. -/
lemma exists_splitRows (rows : Nat) {bytes : List UInt8} (h : rowLength * rows ≤ bytes.length) :
    ∃ full rest, splitRows rows bytes = full ++ [rest] ∧
      (∀ row ∈ full, row.length = rowLength) ∧ rest.length = bytes.length - rowLength * rows := by
  induction rows generalizing bytes with
  | zero => exact ⟨[], bytes, rfl, by simp, by simp⟩
  | succ rows ih =>
    have hdrop : rowLength * rows ≤ (bytes.drop rowLength).length := by
      rw [List.length_drop]
      rw [Nat.mul_succ] at h
      omega
    obtain ⟨full, rest, heq, hfull, hrest⟩ := ih hdrop
    refine ⟨bytes.take rowLength :: full, rest, ?_, List.forall_mem_cons.mpr ⟨?_, hfull⟩, ?_⟩
    · rw [splitRows, heq, List.cons_append]
    · rw [List.length_take]
      rw [Nat.mul_succ] at h
      omega
    · rw [hrest, List.length_drop, Nat.mul_succ]
      omega

/-! ### Arrays -/

/-- A text that shows some bytes as an array. -/
def ShowsArray (type name : String) (bytes : List UInt8) (text : String) : Prop :=
  ∃ full rest rows,
    text.toList.splitOn '\n' =
      s!"static const {type} {name}[{bytes.length}] = \x7b".toList :: rows ++ ["\x7d;".toList, []] ∧
    List.Forall₂ IsRow (full ++ [rest]) rows ∧
    (∀ row ∈ full, row.length = 16) ∧ rest.length < 16 ∧
    (full ++ [rest]).flatten = bytes

/-- Reads an array back: the length that is declared and the bytes in front of its end. -/
def readArray? (text : String) : Option (Nat × List UInt8) :=
  match text.toList.splitOn '\n' with
  | []           => none
  | head :: rest => do
    let (_, length) ← arrayName? head
    let rows ← (rest.takeWhile (· ≠ "\x7d;".toList)).mapM fun row =>
      bytes? (row.dropWhile (· = ' '))
    return (length, rows.flatten)

lemma rows_read {bss : List (List UInt8)} {rows : List (List Char)}
    (h : List.Forall₂ IsRow bss rows) :
    (∀ row ∈ rows, decide (row ≠ "\x7d;".toList) = true) ∧
      rows.mapM (fun row => bytes? (row.dropWhile (· = ' '))) = some bss := by
  induction h with
  | nil => exact ⟨by simp, rfl⟩
  | cons hrow _ ih =>
    refine ⟨List.forall_mem_cons.mpr ⟨decide_eq_true hrow.ne_end, ih.1⟩, ?_⟩
    rw [List.mapM_cons, hrow.bytes?_eq, ih.2]
    rfl

lemma ShowsArray.readArray?_eq {type name text : String} {bytes : List UInt8}
    (h : ShowsArray type name bytes text) : readArray? text = some (bytes.length, bytes) := by
  obtain ⟨full, rest, rows, hlines, hrows, -, -, hbytes⟩ := h
  have hhead : arrayName? s!"static const {type} {name}[{bytes.length}] = \x7b".toList =
      some (s!"static const {type} {name}", bytes.length) := by
    simpa using arrayName?_append s!"static const {type} {name}" bytes.length
  obtain ⟨hall, hread⟩ := rows_read hrows
  have hrest : (rows ++ ["\x7d;".toList, []]).takeWhile (· ≠ "\x7d;".toList) = rows := by
    rw [List.takeWhile_append_of_pos hall]
    simp
  rw [readArray?, hlines, List.cons_append]
  simp only [hhead, hrest, hread, hbytes, Option.bind_eq_bind, Option.bind_some, Option.pure_def]

namespace ByteTable

lemma showsArray (t : ByteTable) (htype : '\n' ∉ t.elementType.toList)
    (hname : '\n' ∉ t.name.toList) :
    ShowsArray t.elementType t.name t.bytes (joinLines t.lines) := by
  obtain ⟨full, rest, hsplit, hfull, hrest⟩ :=
    exists_splitRows (t.bytes.length / rowLength) (Nat.mul_div_le t.bytes.length rowLength)
  have hlines : ∀ l ∈ t.lines, '\n' ∉ l.toList := by
    rw [lines, List.cons_append, List.forall_mem_cons, List.forall_mem_append,
      List.forall_mem_map, List.forall_mem_singleton]
    -- of the three kinds of lines, only the head has a name in it
    refine ⟨?_, fun row _ => (isRow_rowLine row).notMem, by decide⟩
    have hlength := (isWord_repr t.bytes.length).notMem (c := '\n') (by decide)
    simpa [htype, hname] using hlength
  refine ⟨full, rest, (full ++ [rest]).map fun row => (rowLine row).toList, ?_, ?_, hfull, ?_, ?_⟩
  · rw [splitOn_joinLines hlines, lines, hsplit]
    simp
  · rw [List.forall₂_map_right_iff, List.forall₂_same]
    exact fun row _ => isRow_rowLine row
  · -- the last row has the remainder, which is less than a full row
    have hmod := Nat.div_add_mod t.bytes.length rowLength
    have hlt : t.bytes.length % rowLength < 16 := Nat.mod_lt _ (by decide)
    omega
  · rw [← hsplit, flatten_splitRows]

/-- A byte table has its bytes in rows of literals, and they can be read back. A text is embedded as
its bytes in UTF-8 and one zero. -/
theorem shows_and_reads :
    (∀ t : ByteTable, '\n' ∉ t.elementType.toList → '\n' ∉ t.name.toList →
      ShowsArray t.elementType t.name t.bytes (joinLines t.lines) ∧
        readArray? (joinLines t.lines) = some (t.bytes.length, t.bytes)) ∧
    ∀ name text : String, '\n' ∉ name.toList →
      ShowsArray "char" name (text.toUTF8.data.toList ++ [0]) (joinLines (ofText name text).lines) ∧
        readArray? (joinLines (ofText name text).lines) =
          some (text.utf8ByteSize + 1, text.toUTF8.data.toList ++ [0]) := by
  refine ⟨fun t htype hname => ?_, fun name text hname => ?_⟩
  · have hshows := showsArray t htype hname
    exact ⟨hshows, hshows.readArray?_eq⟩
  · have hbytes : (ofText name text).bytes = text.toUTF8.data.toList ++ [0] := by
      rw [ofText, terminated, utf8_eq]
    have hlength : (ofText name text).bytes.length = text.utf8ByteSize + 1 := by
      rw [ofText, terminated, List.length_append, length_utf8]
      rfl
    have htype : '\n' ∉ "char".toList := by decide
    have hshows := showsArray (ofText name text) htype hname
    have hread := hshows.readArray?_eq
    rw [hlength, hbytes] at hread
    rw [hbytes] at hshows
    exact ⟨hshows, hread⟩

end ByteTable

namespace Sample

/-- A full row is followed by a row with one byte, and a text by its zero. -/
theorem shows_and_reads_of_seventeen :
    readArray? (joinLines (ByteTable.ofBytecode "fs" (List.replicate 17 255)).lines) =
        some (17, List.replicate 17 255) ∧
      readArray? (joinLines (ByteTable.ofText "vs" "é\n").lines) =
        some (4, [195, 169, 10, 0]) := by
  obtain ⟨hbytes, htext⟩ := ByteTable.shows_and_reads
  exact ⟨(hbytes (.ofBytecode "fs" (List.replicate 17 255)) (by decide) (by decide)).2,
    (htext "vs" "é\n" (by decide)).2⟩

end Sample

end ShaderHeader
