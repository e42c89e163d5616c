import ShaderHeader.Proofs.Reading.Definition

/-!
# Functions and arrays

Of the code that is left after preprocessing, three things are read: the arrays of bytes, the
definitions of shader descriptors, and the functions that return the address of one of them. What a
function returns depends on the backend that the runtime names when it is asked.
-/

namespace ShaderHeader

namespace Reading

/-! ### Statements -/

/-- A statement returns the address of a descriptor or 0, or it returns the address of a descriptor
if a backend is active. -/
inductive Statement
  | give (descriptor : Option String)
  | test (backend descriptor : String)
  deriving DecidableEq

namespace Statement

/-- The descriptor whose address may be returned. -/
def descriptor? : Statement → Option String
  | give descriptor   => descriptor
  | test _ descriptor => some descriptor

/-- The statement in C. -/
def tokens : Statement → List Token
  | give none               => [.word "return", .word "0", .symbol ";"]
  | give (some descriptor)  => [.word "return", .symbol "&", .word descriptor, .symbol ";"]
  | test backend descriptor =>
    [.word "if", .symbol "(", .word "sg_query_backend", .symbol "(", .symbol ")", .symbol "==",
      .word backend, .symbol ")", .symbol "\x7b", .word "return", .symbol "&", .word descriptor,
      .symbol ";", .symbol "\x7d"]

end Statement

/-- What some statements return for the active backend. There is no result if the last one of them
is passed. -/
def returned (backend : String) : List Statement → Option (Option String)
  | []                         => none
  | .give descriptor :: _      => some descriptor
  | .test b descriptor :: rest =>
    if b = backend then some (some descriptor) else returned backend rest

/-- Reads statements up to the brace that closes the body. -/
def body? : List Token → Option (List Statement)
  | .symbol "\x7d" :: _                                              => some []
  | .word "return" :: .word "0" :: .symbol ";" :: ts                 =>
    (body? ts).map (.give none :: ·)
  | .word "return" :: .symbol "&" :: .word x :: .symbol ";" :: ts    =>
    (body? ts).map (.give (some x) :: ·)
  | .word "if" :: .symbol "(" :: .word "sg_query_backend" :: .symbol "(" :: .symbol ")" ::
      .symbol "==" :: .word b :: .symbol ")" :: .symbol "\x7b" :: .word "return" :: .symbol "&" ::
      .word x :: .symbol ";" :: .symbol "\x7d" :: ts                 =>
    (body? ts).map (.test b x :: ·)
  | _                                                                => none

lemma body?_tokens_append (s : Statement) (ts : List Token) :
    body? (s.tokens ++ ts) = (body? ts).map (s :: ·) := by
  cases s with
  | give d   => cases d <;> rfl
  | test b d => rfl

lemma body?_flatMap (ss : List Statement) (ts : List Token) :
    body? (ss.flatMap Statement.tokens ++ Token.symbol "\x7d" :: ts) = some ss := by
  induction ss with
  | nil => rfl
  | cons s ss ih => rw [List.flatMap_cons, List.append_assoc, body?_tokens_append, ih]; rfl

/-! ### Definitions -/

/-- A function with its body, and the descriptors that are defined in front of it. -/
structure Function where
  name : String
  known : List String
  body : Option (List Statement)
  deriving DecidableEq

/-- What is behind some given tokens, if they stand at the front. -/
def after : List Token → List Token → Option (List Token)
  | [], ts           => some ts
  | _ :: _, []       => none
  | p :: ps, t :: ts => if t = p then after ps ts else none

/-- How the definition of a function starts, up to the brace that opens its body. -/
def signature (name : String) : List Token :=
  [.word "static", .word "inline", .word "const", .word "sg_shader_desc", .symbol "*", .word name,
    .symbol "(", .word "void", .symbol ")", .symbol "\x7b"]

/-- The name of the function that starts here, and what is behind the brace that opens its body. -/
def function? (ts : List Token) : Option (String × List Token) :=
  match after [.word "static", .word "inline", .word "const", .word "sg_shader_desc", .symbol "*"]
    ts with
  | some (.word name :: rest) =>
    (after [.symbol "(", .word "void", .symbol ")", .symbol "\x7b"] rest).map (name, ·)
  | _                         => none

/-- The name of the descriptor whose definition starts here. -/
def descriptor? (ts : List Token) : Option String :=
  match after [.word "static", .word "const", .word "sg_shader_desc"] ts with
  | some (.word name :: .symbol "=" :: _) => some name
  | _                                     => none

/-- Reads all functions. The descriptors that have been defined so far are known. -/
def functions (known : List String) : List Token → List Function
  | []      => []
  | t :: ts =>
    match function? (t :: ts), descriptor? (t :: ts) with
    | some (name, rest), _ => ⟨name, known, body? rest⟩ :: functions known ts
    | none, some name      => functions (known ++ [name]) ts
    | none, none           => functions known ts

/-! ### Arrays -/

/-- The elements of an array, up to the brace that closes it. Every element ends in a comma. -/
def elements? : List Token → Option (List UInt8)
  | .symbol "\x7d" :: _           => some []
  | .word w :: .symbol "," :: ts  => do
    let bytes ← bytes? (w.toList ++ [','])
    let more ← elements? ts
    return bytes ++ more
  | _                             => none

/-- The array whose definition starts here. -/
def array? (ts : List Token) : Option Definition :=
  match after [.word "static", .word "const"] ts with
  | some (.word type :: .word name :: .symbol "[" :: .word n :: .symbol "]" :: .symbol "=" ::
      .symbol "\x7b" :: ts) => do
    let length ← number? n
    let elements ← elements? ts
    return .array type name length elements
  | _                        => none

/-- Reads all arrays. -/
def arrays : List Token → List Definition
  | []      => []
  | t :: ts => (array? (t :: ts)).toList ++ arrays ts

/-! ### What tokens define -/

/-- These tokens define some arrays and some descriptors, and no function. -/
structure Defines (ts : List Token) (as : List Definition) (names : List String) : Prop where
  arrays_append : ∀ rest, arrays (ts ++ rest) = as ++ arrays rest
  functions_append : ∀ known rest, functions known (ts ++ rest) = functions (known ++ names) rest

namespace Defines

variable {ts us : List Token} {as bs : List Definition} {names more : List String}

lemma nil : Defines [] [] [] := ⟨fun rest => by simp, fun known rest => by simp⟩

lemma append (hts : Defines ts as names) (hus : Defines us bs more) :
    Defines (ts ++ us) (as ++ bs) (names ++ more) := by
  constructor
  · intro rest
    rw [List.append_assoc, hts.arrays_append, hus.arrays_append, List.append_assoc]
  · intro known rest
    rw [List.append_assoc, hts.functions_append, hus.functions_append, List.append_assoc]

lemma flatMap_nil {α : Type} {f : α → List Token} {xs : List α}
    (h : ∀ x ∈ xs, Defines (f x) [] []) : Defines (xs.flatMap f) [] [] := by
  induction xs with
  | nil => exact nil
  | cons x xs ih =>
    obtain ⟨hx, hxs⟩ := List.forall_mem_cons.mp h
    exact hx.append (ih hxs)

/-- Every definition starts with the same keyword. -/
lemma of_notMem (h : .word "static" ∉ ts) : Defines ts [] [] := by
  induction ts with
  | nil => exact nil
  | cons t ts ih =>
    obtain ⟨ht, hts⟩ := not_or.mp (mt List.mem_cons.mpr h)
    have hne : t ≠ .word "static" := fun heq => ht heq.symm
    have hfirst : Defines [t] [] [] := by
      constructor
      · intro rest
        simp [arrays, array?, after, hne]
      · intro known rest
        simp [functions, function?, descriptor?, after, hne]
    exact hfirst.append (ih hts)

/-- No definition starts with a word in front of a symbol. -/
lemma word_symbol (w s : String) : Defines [.word w, .symbol s] [] [] := by
  constructor
  · intro rest
    simp [arrays, array?, after]
  · intro known rest
    simp [functions, function?, descriptor?, after]

/-- No definition starts with two words in front of a symbol either. -/
lemma words_append {v w s : String} (h : Defines (.symbol s :: ts) [] []) :
    Defines (wordTokens v ++ wordTokens w ++ Token.symbol s :: ts) [] [] := by
  have hwords : ∀ us : List Token,
      arrays (wordTokens v ++ wordTokens w ++ Token.symbol s :: us) = arrays (.symbol s :: us) ∧
        ∀ known, functions known (wordTokens v ++ wordTokens w ++ Token.symbol s :: us) =
          functions known (.symbol s :: us) := by
    intro us
    by_cases hv : v = ""
    · by_cases hw : w = ""
      · simp [hv, hw]
      · simp [hv, wordTokens_of_ne hw, arrays, array?, functions, function?, descriptor?, after]
    · by_cases hw : w = ""
      · simp [hw, wordTokens_of_ne hv, arrays, array?, functions, function?, descriptor?, after]
      · simp [wordTokens_of_ne hv, wordTokens_of_ne hw, arrays, array?, functions, function?,
          descriptor?, after]
  constructor
  · intro rest
    rw [List.append_assoc, List.cons_append, (hwords _).1, ← List.cons_append, h.arrays_append]
  · intro known rest
    rw [List.append_assoc, List.cons_append, (hwords _).2, ← List.cons_append, h.functions_append]

/-- An array has the elements between its braces. Nothing else is defined there. -/
lemma array {type name : String} {bytes : List UInt8} (n : Nat) (hts : .word "static" ∉ ts)
    (helements : ∀ rest, elements? (ts ++ Token.symbol "\x7d" :: rest) = some bytes) :
    Defines ([.word "static", .word "const", .word type, .word name, .symbol "[", .word n.repr,
        .symbol "]", .symbol "=", .symbol "\x7b"] ++ ts ++ [.symbol "\x7d", .symbol ";"])
      [.array type name n bytes] [] := by
  have hclose : .word "static" ∉ [Token.symbol "\x7d", .symbol ";"] := by decide
  have hrest := (of_notMem hts).append (of_notMem hclose)
  constructor
  · intro rest
    have harrays : arrays (ts ++ Token.symbol "\x7d" :: .symbol ";" :: rest) = arrays rest := by
      simpa using hrest.arrays_append rest
    simp [arrays, array?, after, helements, harrays]
  · intro known rest
    have hfunctions : functions known (ts ++ Token.symbol "\x7d" :: .symbol ";" :: rest) =
        functions known rest := by
      simpa using hrest.functions_append known rest
    simp [functions, function?, descriptor?, after, hfunctions]

/-- The definition of a descriptor starts like this. -/
lemma head (name : String) :
    Defines [.word "static", .word "const", .word "sg_shader_desc", .word name, .symbol "=",
      .symbol "\x7b"] [] [name] := by
  constructor
  · intro rest
    simp [arrays, array?, after]
  · intro known rest
    simp [functions, function?, descriptor?, after]

/-- No definition starts within a statement. -/
lemma statement (s : Statement) : Defines s.tokens [] [] := by
  have hreturn : Defines [.word "return", .symbol "&"] [] [] := .of_notMem (by decide)
  cases s with
  | give d =>
    cases d with
    | none   => exact .of_notMem (by decide)
    | some d => exact hreturn.append (.word_symbol d ";")
  | test b d =>
    have htest : Defines [.word "if", .symbol "(", .word "sg_query_backend", .symbol "(",
        .symbol ")", .symbol "=="] [] [] := .of_notMem (by decide)
    have hopen : Defines [.symbol "\x7b"] [] [] := .of_notMem (by decide)
    have hclose : Defines [.symbol "\x7d"] [] [] := .of_notMem (by decide)
    exact (htest.append (.word_symbol b ")")).append (hopen.append
      (hreturn.append ((word_symbol d ";").append hclose)))

end Defines

/-- A function as a whole is read as one. -/
lemma functions_append (known : List String) (name : String) (ss : List Statement)
    (rest : List Token) :
    functions known (signature name ++
        (ss.flatMap Statement.tokens ++ Token.symbol "\x7d" :: rest)) =
      ⟨name, known, some ss⟩ :: functions known rest := by
  -- nothing is defined within a body
  have hbody : functions known (ss.flatMap Statement.tokens ++ Token.symbol "\x7d" :: rest) =
      functions known rest := by
    have hss := Defines.flatMap_nil fun s (_ : s ∈ ss) => Defines.statement s
    have hclose : Defines [.symbol "\x7d"] [] [] := .of_notMem (by decide)
    simpa using (hss.append hclose).functions_append known rest
  simp [signature, functions, function?, descriptor?, after, hbody, body?_flatMap]

end Reading

end ShaderHeader
