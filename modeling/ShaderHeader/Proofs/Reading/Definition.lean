import Mathlib.Data.List.DropRight
import ShaderHeader.Proofs.Reading.Token

/-!
# Definitions

The lines of a section define arrays of bytes and descriptors. They are read one by one here, and
whatever stands for a name is taken for one, so nothing has to be known about names. A comment
reaches from the line that starts it to the line that ends it, whatever is in between. Comments and
directives are left out, and so is what a descriptor says beside the code of its stages. Any other
line that is not understood makes reading fail.
-/

namespace ShaderHeader

namespace Reading

/-- What a descriptor says about the code of a stage: which array the source text is in, which one
the bytecode is in, and how many bytes of it there are. What there is none of is given as 0. -/
structure CodeFields where
  source : Option String
  bytecode : Option String
  size : Nat
  deriving DecidableEq

/-- An array with its declared length and its elements, or a descriptor with the code of its
stages. -/
inductive Definition
  | array (type name : String) (length : Nat) (elements : List UInt8)
  | descriptor (name : String) (vertex fragment : CodeFields)
  deriving DecidableEq

/-- What is defined. -/
def Definition.name : Definition → String
  | array _ name _ _    => name
  | descriptor name _ _ => name

/-- Whether an array is defined. -/
def Definition.isArray : Definition → Bool
  | array _ _ _ _    => true
  | descriptor _ _ _ => false

/-! ### Parts of lines -/

/-- What stands in front of an ending. -/
def before? (ending cs : List Char) : Option (List Char) :=
  (cs.reverse.dropPrefix? ending.reverse).map List.reverse

lemma before?_eq_some_iff {ending cs as : List Char} :
    before? ending cs = some as ↔ cs = as ++ ending := by
  simp [before?, List.dropPrefix?_eq_some_iff, List.reverse_eq_iff]

@[simp] lemma before?_append (ending cs : List Char) : before? ending (cs ++ ending) = some cs :=
  before?_eq_some_iff.mpr rfl

/-- A text is not the start of what has another first character. -/
lemma dropPrefix?_eq_none {cs as : List Char} {a : Char} (h : cs.head? ≠ some a) :
    cs.dropPrefix? (String.ofList (a :: as)).toList = none := by
  rw [String.toList_ofList]
  cases cs with
  | nil => rfl
  | cons c cs =>
    have hne : c ≠ a := fun heq => h (congrArg some heq)
    simp [List.dropPrefix?, hne]

/-- The value of a hexadecimal digit. -/
def hexDigit? (c : Char) : Option Nat :=
  "0123456789abcdef".toList.findIdx? (· = c)

lemma hexDigit?_digitChar {n : Nat} (h : n < 16) : hexDigit? (Nat.digitChar n) = some n := by
  revert n
  decide

/-- The bytes of some literals. -/
def bytes? : List Char → Option (List UInt8)
  | []                                     => some []
  | '0' :: 'x' :: high :: low :: ',' :: cs => do
    let h ← hexDigit? high
    let l ← hexDigit? low
    let bytes ← bytes? cs
    return .ofNat (16 * h + l) :: bytes
  | _                                      => none

/-- The name and the length of an array, from what follows its type. -/
def arrayName? (cs : List Char) : Option (String × Nat) := do
  let cs ← before? "] = \x7b".toList cs
  let name ← before? ['['] (cs.rdropWhile (· ≠ '['))
  let length ← number? (.ofList (cs.rtakeWhile (· ≠ '[')))
  return (.ofList name, length)

lemma arrayName?_append (name : String) (length : Nat) :
    arrayName? (name.toList ++ '[' :: length.repr.toList ++ "] = \x7b".toList) =
      some (name, length) := by
  -- a number has no bracket, so the last bracket is the one in front of it
  have hdigits : ∀ c ∈ length.repr.toList.reverse, decide (c ≠ '[') = true := by
    intro c hc
    have hword := isWord_repr length c (List.mem_reverse.mp hc)
    exact decide_eq_true fun heq => absurd (heq ▸ hword) (by decide)
  have hdrop : (name.toList ++ '[' :: length.repr.toList).rdropWhile (· ≠ '[') =
      name.toList ++ ['['] := by
    rw [List.rdropWhile, List.reverse_append, List.reverse_cons, List.append_assoc,
      List.dropWhile_append_of_pos hdigits]
    simp
  have htake : (name.toList ++ '[' :: length.repr.toList).rtakeWhile (· ≠ '[') =
      length.repr.toList := by
    rw [List.rtakeWhile, List.reverse_append, List.reverse_cons, List.append_assoc,
      List.takeWhile_append_of_pos hdigits]
    simp
  simp only [arrayName?, before?_append, Option.bind_eq_bind, Option.bind_some, hdrop, htake,
    String.ofList_toList, number?_repr, Option.pure_def]

/-- The first line of a definition. -/
inductive Heading
  | array (type name : String) (length : Nat)
  | descriptor (name : String)
  deriving DecidableEq

def heading? (line : String) : Option Heading := do
  let cs ← line.toList.dropPrefix? "static const ".toList
  match cs.dropPrefix? "sg_shader_desc ".toList with
  | some cs => (before? " = \x7b".toList cs).map fun name => .descriptor (.ofList name)
  | none    =>
    let type := cs.takeWhile (· ≠ ' ')
    (arrayName? (cs.drop (type.length + 1))).map fun (name, length) =>
      .array (.ofList type) name length

lemma heading?_array {type : String} (htype : type = "char" ∨ type = "uint8_t") (name : String)
    (length : Nat) :
    heading? s!"static const {type} {name}[{length}] = \x7b" = some (.array type name length) := by
  have hname := arrayName?_append name length
  rcases htype with rfl | rfl
  · simpa [heading?, List.dropPrefix?] using hname
  · simpa [heading?, List.dropPrefix?] using hname

lemma heading?_descriptor (name : String) :
    heading? s!"static const sg_shader_desc {name} = \x7b" = some (.descriptor name) := by
  simp [heading?, List.dropPrefix?]

/-- A value that is followed by a comma and by its label in a comment. -/
def value? (label line : String) : Option String := do
  let cs ← before? s!"/* {label} */".toList line.toList
  let value ← before? [','] (cs.rdropWhile (· = ' '))
  return .ofList (value.drop 4)

lemma value?_append (label value : String) :
    value? label s!"    {value}, /* {label} */" = some value := by
  have hline : s!"    {value}, /* {label} */".toList =
      ("    " ++ value ++ ", ").toList ++ s!"/* {label} */".toList := by
    simp
  have htrimmed : ("    " ++ value ++ ", ").toList.rdropWhile (· = ' ') =
      ("    " ++ value).toList ++ [','] := by
    simp [List.rdropWhile]
  rw [value?, hline, before?_append, Option.bind_eq_bind, Option.bind_some, htrimmed,
    before?_append]
  simp

/-- A line does not have a label if it ends in another way. -/
lemma value?_eq_none {label line : String} {ending : List Char} (hline : ending <:+ line.toList)
    (hending : ¬ ending <:+ s!"/* {label} */".toList)
    (hlabel : ¬ s!"/* {label} */".toList <:+ ending) : value? label line = none := by
  have hbefore : before? s!"/* {label} */".toList line.toList = none := by
    cases hcs : before? s!"/* {label} */".toList line.toList with
    | none    => rfl
    | some cs =>
      have hsuffix : s!"/* {label} */".toList <:+ line.toList :=
        ⟨cs, (before?_eq_some_iff.mp hcs).symm⟩
      rcases List.suffix_or_suffix_of_suffix hline hsuffix with h | h
      · exact absurd h hending
      · exact absurd h hlabel
  rw [value?, hbefore]
  rfl

/-- The fields for the code of a stage. -/
def fieldLabels : List String :=
  ["source", "bytecode", "bytecode_size"]

/-- A field for the code of a stage, with its label. -/
def field? (line : String) : Option (String × String) :=
  fieldLabels.findSome? fun label => (value? label line).map (label, ·)

lemma field?_eq_none {line : String} {ending : List Char} (hline : ending <:+ line.toList)
    (hending : ∀ label ∈ fieldLabels,
      ¬ ending <:+ s!"/* {label} */".toList ∧ ¬ s!"/* {label} */".toList <:+ ending) :
    field? line = none := by
  rw [field?, List.findSome?_eq_none_iff]
  intro label hlabel
  obtain ⟨h, h'⟩ := hending label hlabel
  rw [value?_eq_none hline h h', Option.map_none]

/-- No label is the end of another one, so a field is found by its own label. -/
lemma field?_eq_some {line label value : String} (h : label ∈ fieldLabels)
    (hline : line = s!"    {value}, /* {label} */") : field? line = some (label, value) := by
  have hdiffer : ∀ l ∈ fieldLabels, ∀ k ∈ fieldLabels, l ≠ k →
      ¬ s!"/* {l} */".toList <:+ s!"/* {k} */".toList := by
    decide
  have hsuffix : s!"/* {label} */".toList <:+ line.toList :=
    ⟨("    " ++ value ++ ", ").toList, by simp [hline]⟩
  have hother : ∀ other ∈ fieldLabels, other ≠ label → value? other line = none :=
    fun other hmem hne => value?_eq_none hsuffix (hdiffer _ h _ hmem (Ne.symm hne))
      (hdiffer _ hmem _ h hne)
  obtain ⟨before, after, heq⟩ := List.append_of_mem h
  have hnodup : fieldLabels.Nodup := by decide
  rw [heq, List.nodup_append] at hnodup
  refine List.findSome?_eq_some_iff.mpr ⟨before, label, after, heq, ?_, fun other hmem => ?_⟩
  · rw [hline, value?_append, Option.map_some]
  · have hne : other ≠ label := hnodup.2.2 other hmem label List.mem_cons_self
    rw [hother other (heq ▸ List.mem_append_left _ hmem) hne, Option.map_none]

/-- Which array a field refers to. -/
def reference? (value : String) : Option String :=
  if value = "0" then none else some value

def codeFields? : List (String × String) → Option CodeFields
  | [("source", source), ("bytecode", bytecode), ("bytecode_size", size)] =>
    (number? size).map fun size => ⟨reference? source, reference? bytecode, size⟩
  | _ => none

/-- A descriptor has the fields of its vertex stage first. -/
def descriptorOf? (name : String) (fields : List (String × String)) : Option Definition := do
  let vertex ← codeFields? (fields.take 3)
  let fragment ← codeFields? (fields.drop 3)
  return .descriptor name vertex fragment

/-! ### Reading lines -/

/-- Where the reader is: between definitions, in a comment, in an array with some elements, or in a
descriptor with some fields. -/
inductive Place
  | outside
  | comment
  | array (type name : String) (length : Nat) (elements : List UInt8)
  | descriptor (name : String) (fields : List (String × String))
  deriving DecidableEq

/-- Where the reader is behind the first line of a definition. -/
def Heading.place : Heading → Place
  | array type name length => .array type name length []
  | descriptor name        => .descriptor name []

/-- Reads one line. The result has the definition that is complete. -/
def Place.step : Place → String → Option (Option Definition × Place)
  | outside, line                          =>
    if line = "/*" then some (none, comment)
    else if line.toList.head? = some '#' then some (none, outside)
    else (heading? line).map fun h => (none, h.place)
  | comment, line                          =>
    some (none, if line = "*/" then outside else comment)
  | array type name length elements, line  =>
    if line = "\x7d;" then some (some (.array type name length elements), outside)
    else (bytes? (line.toList.dropWhile (· = ' '))).map fun more =>
      (none, array type name length (elements ++ more))
  | descriptor name fields, line           =>
    if line = "\x7d;" then (descriptorOf? name fields).map (some ·, outside)
    else some (none, descriptor name (fields ++ (field? line).toList))

/-- Reads some lines, up to the end of everything that has been started. -/
def readDefinitions : Place → List String → Option (List Definition)
  | .outside, [] => some []
  | _, []        => none
  | p, l :: ls   => do
    let (d, p) ← p.step l
    let ds ← readDefinitions p ls
    return d.toList ++ ds

/-- All definitions, in order. -/
def definitions (lines : List String) : Option (List Definition) :=
  readDefinitions .outside lines

section

variable {p p' : Place} {l : String} {d : Definition}

lemma readDefinitions_of_step (h : p.step l = some (none, p')) (K : List String) :
    readDefinitions p (l :: K) = readDefinitions p' K := by
  simp [readDefinitions, h]

lemma readDefinitions_of_complete (h : p.step l = some (some d, p')) (K : List String) :
    readDefinitions p (l :: K) = (readDefinitions p' K).map (d :: ·) := by
  simp only [readDefinitions, h, Option.bind_eq_bind, Option.bind_some, Option.pure_def]
  cases readDefinitions p' K <;> rfl

end

/-- A line with a heading is neither a directive nor the start of a comment. -/
lemma step_of_heading? {l : String} {h : Heading} (hl : heading? l = some h) :
    Place.step .outside l = some (none, h.place) := by
  obtain ⟨cs, hprefix, -⟩ := Option.bind_eq_some_iff.mp hl
  obtain ⟨start, htext, hstart⟩ := List.dropPrefix?_eq_some_iff.mp hprefix
  obtain rfl : start = "static const ".toList := by simpa using hstart
  have hcomment : l ≠ "/*" := by
    rintro rfl
    simp at htext
  have hdirective : l.toList.head? ≠ some '#' := by
    simp [htext]
  rw [Place.step, if_neg hcomment, if_neg hdirective, hl, Option.map_some]

/-! ### Lines of one definition -/

/-- The reader finds these definitions in some lines and is between definitions again behind
them. -/
def Spells (L : List String) (ds : List Definition) : Prop :=
  ∀ K, readDefinitions .outside (L ++ K) = (readDefinitions .outside K).map (ds ++ ·)

namespace Spells

variable {α : Type} {L K : List String} {ds es : List Definition}

lemma definitions_eq (h : Spells L ds) : definitions L = some ds := by
  simpa [definitions, readDefinitions] using h []

lemma nil : Spells [] [] := by
  intro K
  simp

lemma append (hL : Spells L ds) (hK : Spells K es) : Spells (L ++ K) (ds ++ es) := by
  intro M
  rw [List.append_assoc, hL, hK, Option.map_map]
  simp [Function.comp_def]

lemma flatMap {text : α → List String} {spelled : α → Definition} {as : List α}
    (h : ∀ a ∈ as, Spells (text a) [spelled a]) : Spells (as.flatMap text) (as.map spelled) := by
  induction as with
  | nil => exact nil
  | cons a as ih =>
    obtain ⟨ha, has⟩ := List.forall_mem_cons.mp h
    exact ha.append (ih has)

/-- A directive defines nothing. -/
lemma directive {l : String} (h : l.toList.head? = some '#') : Spells [l] [] := by
  have hcomment : l ≠ "/*" := by
    rintro rfl
    cases h
  have hstep : Place.step .outside l = some (none, .outside) := by
    rw [Place.step, if_neg hcomment, if_pos h]
  intro K
  simpa using readDefinitions_of_step hstep K

/-- A comment ends with the first line that says so. -/
lemma comment (h : ∀ l ∈ L, l ≠ "*/") : Spells ("/*" :: L ++ ["*/"]) [] := by
  intro K
  have hinside : readDefinitions .comment (L ++ "*/" :: K) = readDefinitions .outside K := by
    induction L with
    | nil => exact readDefinitions_of_step rfl K
    | cons l L ih =>
      obtain ⟨hl, hL⟩ := List.forall_mem_cons.mp h
      have hstep : Place.step .comment l = some (none, .comment) := by
        rw [Place.step, if_neg hl]
      rw [List.cons_append, readDefinitions_of_step hstep, ih hL]
  rw [List.append_assoc, List.cons_append, readDefinitions_of_step rfl]
  simpa using hinside

/-- An array has the elements of its rows. -/
lemma array {head type name : String} {length : Nat} {rows : List String}
    {bytes : List (List UInt8)} (hhead : heading? head = some (.array type name length))
    (hrows : List.Forall₂
      (fun row bs => row ≠ "\x7d;" ∧ bytes? (row.toList.dropWhile (· = ' ')) = some bs)
      rows bytes) :
    Spells (head :: rows ++ ["\x7d;"]) [.array type name length bytes.flatten] := by
  intro K
  -- rows are read up to the line that ends the array, with what has been read so far
  have hinside : ∀ elements,
      readDefinitions (.array type name length elements) (rows ++ "\x7d;" :: K) =
        (readDefinitions .outside K).map
          (.array type name length (elements ++ bytes.flatten) :: ·) := by
    induction hrows with
    | nil => exact fun elements => readDefinitions_of_complete (by simp [Place.step]) K
    | @cons row bs rows bytes hrow _ ih =>
      intro elements
      have hstep : Place.step (.array type name length elements) row =
          some (none, .array type name length (elements ++ bs)) := by
        rw [Place.step, if_neg hrow.1, hrow.2, Option.map_some]
      rw [List.cons_append, readDefinitions_of_step hstep, ih]
      simp
  rw [List.append_assoc, List.cons_append, readDefinitions_of_step (step_of_heading? hhead)]
  exact hinside []

/-- A descriptor has the fields of its lines. -/
lemma descriptor {head name : String} {body : List String} {d : Definition}
    (hhead : heading? head = some (.descriptor name)) (hbody : ∀ l ∈ body, l ≠ "\x7d;")
    (hd : descriptorOf? name (body.filterMap field?) = some d) :
    Spells (head :: body ++ ["\x7d;"]) [d] := by
  intro K
  have hinside : ∀ fields, readDefinitions (.descriptor name fields) (body ++ "\x7d;" :: K) =
      readDefinitions (.descriptor name (fields ++ body.filterMap field?)) ("\x7d;" :: K) := by
    clear hd
    induction body with
    | nil => simp
    | cons l body ih =>
      intro fields
      obtain ⟨hl, hbody⟩ := List.forall_mem_cons.mp hbody
      have hstep : Place.step (.descriptor name fields) l =
          some (none, .descriptor name (fields ++ (field? l).toList)) := by
        rw [Place.step, if_neg hl]
      rw [List.cons_append, readDefinitions_of_step hstep, ih hbody]
      cases hfield : field? l <;> simp [hfield]
  have hend : Place.step (.descriptor name (body.filterMap field?)) "\x7d;" =
      some (some d, .outside) := by
    rw [Place.step, if_pos rfl, hd, Option.map_some]
  rw [List.append_assoc, List.cons_append, readDefinitions_of_step (step_of_heading? hhead)]
  exact (hinside []).trans (readDefinitions_of_complete hend K)

end Spells

end Reading

end ShaderHeader
