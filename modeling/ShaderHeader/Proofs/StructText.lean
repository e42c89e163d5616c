import Mathlib.Algebra.Ring.Nat
import ShaderHeader.Proofs.Layout
import ShaderHeader.Proofs.Reading.Token

/-!
# Host structs in C

The members of a host struct are read back from their text, and a C compiler's rules for packed
structs are applied to what is read: a member starts where the one before it ends. The offsets found
in this way are those that the device has fixed.
-/

namespace ShaderHeader

open Reading

/-! ### Packed structs -/

/-- A member of a C struct, as it is declared. -/
structure CMember where
  type : String
  name : String
  dims : List Nat := []
  deriving DecidableEq

namespace CMember

/-- The dimensions of an array, one after another. -/
def dims? : List Token → Option (List Nat)
  | []                                            => some []
  | .symbol "[" :: .word n :: .symbol "]" :: rest => do
    let n ← number? n
    let dims ← dims? rest
    return n :: dims
  | _                                             => none

/-- Reads the tokens in front of a semicolon. -/
def read? : List Token → Option CMember
  | .word type :: .word name :: rest => (dims? rest).map (⟨type, name, ·⟩)
  | _                                => none

/-- Reads the members of a struct. Each of them ends with a semicolon. -/
def readAll? (text : String) : Option (List CMember) := do
  let ts ← Reading.tokens text
  let pieces := (ts.filter (· ≠ .newline)).splitOn (.symbol ";")
  if pieces.getLast? = some [] then pieces.dropLast.mapM read? else none

/-- The bytes of a member if those of its type are known. -/
def size (sizeOf : String → Nat) (m : CMember) : Nat :=
  sizeOf m.type * m.dims.prod

/-- The members of a packed struct with their offsets, from a first offset on. -/
def place (sizeOf : String → Nat) : Nat → List CMember → List (CMember × Nat)
  | _, []           => []
  | offset, m :: ms => (m, offset) :: place sizeOf (offset + m.size sizeOf) ms

/-- The size of a packed struct. -/
def totalSize (sizeOf : String → Nat) (ms : List CMember) : Nat :=
  (ms.map (size sizeOf)).sum

/-- Plain bytes are padding. -/
def isPadding (m : CMember) : Bool :=
  m.type = "uint8_t"

/-- How some dimensions are written. -/
def dimsTokens (dims : List Nat) : List Token :=
  dims.flatMap fun n => [.symbol "[", .word n.repr, .symbol "]"]

/-- How a member is written: a type, a name and the dimensions. -/
def tokens (m : CMember) : List Token :=
  .word m.type :: .word m.name :: dimsTokens m.dims

lemma dims?_tokens (dims : List Nat) : dims? (dimsTokens dims) = some dims := by
  induction dims with
  | nil => rfl
  | cons n dims ih =>
    rw [dimsTokens] at ih
    simp [dimsTokens, dims?, ih]

lemma read?_tokens (m : CMember) : read? m.tokens = some m := by
  simp [tokens, read?, dims?_tokens]

/-- The tokens of a line that declares a member. -/
def lineTokens (m : CMember) : List Token :=
  m.tokens ++ [Token.symbol ";", Token.newline]

lemma filter_lineTokens (ms : List CMember) :
    (ms.flatMap lineTokens).filter (· ≠ .newline) =
      ms.flatMap fun m => m.tokens ++ [Token.symbol ";"] := by
  rw [List.filter_flatMap]
  apply List.flatMap_congr
  intro m _
  suffices h : ∀ t ∈ m.tokens, t ≠ .newline by simpa [lineTokens] using h
  intro t ht heq
  simp [heq, tokens, dimsTokens] at ht

/-- Nothing but the end of a declaration is a semicolon. -/
lemma splitOn_semicolons (ms : List CMember) :
    (ms.flatMap fun m => m.tokens ++ [Token.symbol ";"]).splitOn (Token.symbol ";") =
      ms.map tokens ++ [[]] := by
  induction ms with
  | nil => rfl
  | cons m ms ih =>
    have hm : Token.symbol ";" ∉ m.tokens := by simp [tokens, dimsTokens]
    rw [List.flatMap_cons, List.append_assoc, List.singleton_append,
      List.splitOn_append_cons_self_of_not_mem hm, ih]
    rfl

lemma readAll?_of_tokens {text : String} {ms : List CMember}
    (h : Reading.tokens text = some (ms.flatMap lineTokens)) : readAll? text = some ms := by
  have hread : (ms.map tokens).mapM read? = some ms := by
    clear h
    induction ms with
    | nil => rfl
    | cons m ms ih => simp [read?_tokens, ih]
  have hpieces := (congrArg (List.splitOn (.symbol ";")) (filter_lineTokens ms)).trans
    (splitOn_semicolons ms)
  simp only [readAll?, h, Option.bind_eq_bind, Option.bind_some, hpieces]
  simp [hread]

end CMember

/-! ### The text of a member -/

/-- Some dimensions in C. -/
def dimsText (dims : List Nat) : String :=
  String.join (dims.map fun n => "[" ++ n.repr ++ "]")

lemma dimension_eq (n : Nat) : dimension n = dimsText ([n].filter (· ≠ 1)) := by
  by_cases h : n = 1
  · simp [dimension, dimsText, h]
  · simp [dimension, dimsText, h]

lemma segment_dimension {w : String} (h : IsWord w) (hne : w ≠ "") :
    Segment ("[" ++ w ++ "]") [.symbol "[", .word w, .symbol "]"] := by
  constructor
  · simp [h.plain]
  · simp [run_word h, run, step, start, isWordChar, wordTokens_of_ne hne]

lemma segment_dimsText (dims : List Nat) :
    Segment (dimsText dims ++ ";") (CMember.dimsTokens dims ++ [Token.symbol ";"]) := by
  refine .append (.join fun n _ => segment_dimension (isWord_repr n) Nat.repr_ne_empty) ?_
  exact ⟨by decide, rfl⟩

lemma segment_declaration {type name : String} (htype : IsWord type) (hname : IsWord name)
    (dims : List Nat) :
    Segment ("    " ++ type ++ " " ++ name ++ (dimsText dims ++ ";"))
      (wordTokens type ++ wordTokens name ++ (CMember.dimsTokens dims ++ [Token.symbol ";"])) := by
  have hrest := segment_dimsText dims
  have hhead : ∃ c ∈ (dimsText dims ++ ";").toList.head?, isWordChar c = false := by
    cases dims with
    | nil         => exact ⟨';', by decide, by decide⟩
    | cons n dims => exact ⟨'[', by simp [dimsText], by decide⟩
  generalize dimsText dims ++ ";" = rest at hrest hhead
  constructor
  · simp [htype.plain, hname.plain, hrest.plain]
  · simp [run_word htype, run_word hname, hrest.run_code hhead, run, step, start, isWordChar]

namespace Member

/-- What a member is read as. An unsupported field is not a member in C. -/
def declared : Member → CMember
  | padding offset length             => ⟨"uint8_t", "_pad_" ++ offset.repr, [length]⟩
  | field name _ (.named type) count  => ⟨type, name, [count].filter (· ≠ 1)⟩
  | field name _ (.floats size) count =>
    ⟨"float", name, [count].filter (· ≠ 1) ++ [size].filter (· ≠ 1)⟩
  | field name _ .unsupported _       => ⟨"", name, []⟩

/-- Whether a member has a declaration in C. -/
def IsSupported : Member → Prop
  | field _ _ .unsupported _ => False
  | _                        => True

lemma line_padding (offset length : Nat) :
    (padding offset length).line = s!"    uint8_t _pad_{offset}[{length}];" := rfl

lemma line_named (name host : String) (offset count : Nat) :
    (field name offset (.named host) count).line = s!"    {host} {name}{dimension count};" := rfl

lemma line_floats (name : String) (offset size count : Nat) :
    (field name offset (.floats size) count).line =
      s!"    float {name}{dimension count}{dimension size};" := rfl

lemma line_eq {m : Member} (h : m.IsSupported) :
    m.line =
      "    " ++ m.declared.type ++ " " ++ m.declared.name ++ (dimsText m.declared.dims ++ ";") := by
  cases m with
  | padding offset length =>
    simp [line_padding, declared, dimsText, ← String.toList_inj]
  | field name offset type count =>
    cases type with
    | named host =>
      simp [line_named, declared, dimension_eq, dimsText, ← String.toList_inj]
    | floats size =>
      simp [line_floats, declared, dimension_eq, dimsText, ← String.toList_inj]
    | unsupported => exact h.elim

/-- A line declares what the member is read as. -/
lemma segment_line {m : Member} (h : m.IsSupported) (htype : IsIdentifier m.declared.type)
    (hname : IsIdentifier m.declared.name) : Segment (m.line ++ "\n") m.declared.lineTokens := by
  have hend : Segment "\n" [.newline] := ⟨by decide, rfl⟩
  have hline := (segment_declaration htype.1 hname.1 m.declared.dims).append hend
  rw [← line_eq h, wordTokens_of_ne htype.ne_empty, wordTokens_of_ne hname.ne_empty] at hline
  simpa [CMember.lineTokens, CMember.tokens] using hline

/-- A member with a declaration in C, in which the names are identifiers. -/
structure IsReadable (m : Member) : Prop where
  supported : m.IsSupported
  type : IsIdentifier m.declared.type
  name : IsIdentifier m.declared.name

lemma isReadable_padding (offset length : Nat) : (padding offset length).IsReadable := by
  have hbyte : IsIdentifier "uint8_t" := by decide
  have hpad : IsWord "_pad_" := .of_chars rfl
  have hword : IsWord ("_pad_" ++ offset.repr) := hpad.append (isWord_repr offset)
  exact ⟨trivial, hbyte, hword, by simp [declared]⟩

end Member

lemma readAll?_joinLines {ms : List Member} (h : ∀ m ∈ ms, m.IsReadable) :
    CMember.readAll? (joinLines (ms.map Member.line)) = some (ms.map Member.declared) := by
  refine CMember.readAll?_of_tokens (Segment.tokens_eq ?_)
  simpa [joinLines, Function.comp_def, List.flatMap_map] using
    Segment.join fun m hm => Member.segment_line (h m hm).supported (h m hm).type (h m hm).name

/-! ### The lines of a struct -/

/-- Whether a line opens a struct. -/
def opensStruct (line : String) : Bool :=
  line.toList.getLast? = some '\x7b'

/-- Whether a line closes a struct. -/
def closesStruct (line : String) : Bool :=
  line.toList.head? = some '\x7d'

/-- The lines between the first one that opens a struct and the one that closes it. -/
def structBody (L : List String) : List String :=
  ((L.dropWhile fun l => !opensStruct l).drop 1).takeWhile fun l => !closesStruct l

lemma opensStruct_append (x : String) {y : String} {c : Char}
    (h : y.toList.getLast? = some c) : opensStruct (x ++ y) = decide (c = '\x7b') := by
  rw [opensStruct, String.toList_append, List.getLast?_append, h, Option.some_or]
  simp

lemma Member.closesStruct_line (m : Member) : closesStruct m.line = false := by
  fun_cases Member.line m <;> simp [closesStruct]

/-- In between there is one line for each member. -/
lemma HostStruct.structBody_lines (qualifier : String) (s : HostStruct) :
    structBody (s.lines qualifier) = s.members.map Member.line := by
  have hconstant : opensStruct (s.constant qualifier).line = false :=
    opensStruct_append _ (c := ')') rfl
  have hpack : opensStruct "#pragma pack(push,1)" = false := by decide
  have hopen : ∀ name : String, opensStruct
      s!"SOKOL_SHDC_ALIGN({blockStride}) typedef struct {name} \x7b" = true :=
    fun name => opensStruct_append _ (c := '\x7b') rfl
  have hclose : ∀ name : String, closesStruct s!"\x7d {name};" = true := fun name => by
    simp [closesStruct]
  -- no member closes the struct, whatever it is called
  have hmembers : ∀ l ∈ s.members.map Member.line, (!closesStruct l) = true := by
    simp [Member.closesStruct_line]
  rw [structBody, lines, List.append_assoc, List.cons_append, List.cons_append, List.cons_append,
    List.dropWhile_cons_of_pos (by simp [hconstant]), List.dropWhile_cons_of_pos (by simp [hpack]),
    List.dropWhile_cons_of_neg (by rw [hopen]; decide), List.drop_one, List.tail_cons,
    List.nil_append, List.takeWhile_append_of_pos hmembers,
    List.takeWhile_cons_of_neg (by rw [hclose]; decide), List.append_nil]

/-! ### The layout that is read -/

variable {sizeOf : String → Nat}

/-- Members that fill the bytes from one offset up to another without gaps. -/
def Fill (sizeOf : String → Nat) : Nat → List Member → Nat → Prop
  | start, [], stop      => start = stop
  | start, m :: ms, stop =>
    m.offset = start ∧ 0 < m.declared.size sizeOf ∧
      Fill sizeOf (start + m.declared.size sizeOf) ms stop

namespace Fill

lemma append {start middle stop : Nat} {ms ns : List Member} (hms : Fill sizeOf start ms middle)
    (hns : Fill sizeOf middle ns stop) : Fill sizeOf start (ms ++ ns) stop := by
  induction ms generalizing start with
  | nil =>
    obtain rfl : start = middle := hms
    exact hns
  | cons m ms ih => exact ⟨hms.1, hms.2.1, ih hms.2.2⟩

lemma pad (hbyte : sizeOf "uint8_t" = 1) {start stop : Nat} (h : start ≤ stop) :
    Fill sizeOf start (pad start stop) stop := by
  unfold ShaderHeader.pad
  split_ifs with hlt
  · have hsize : (Member.padding start (stop - start)).declared.size sizeOf = stop - start := by
      simp [Member.declared, CMember.size, hbyte]
    refine ⟨rfl, by omega, ?_⟩
    rw [hsize]
    exact Nat.add_sub_of_le h
  · exact Nat.le_antisymm h (Nat.le_of_not_lt hlt)

/-- The compiler finds every member where the layout has put it. -/
lemma place_eq {start stop : Nat} {ms : List Member} (h : Fill sizeOf start ms stop) :
    CMember.place sizeOf start (ms.map Member.declared) =
      ms.map fun m => (m.declared, m.offset) := by
  induction ms generalizing start with
  | nil => rfl
  | cons m ms ih =>
    obtain ⟨rfl, -, hms⟩ := h
    rw [List.map_cons, CMember.place, ih hms, List.map_cons]

lemma add_totalSize {start stop : Nat} {ms : List Member} (h : Fill sizeOf start ms stop) :
    start + CMember.totalSize sizeOf (ms.map Member.declared) = stop := by
  induction ms generalizing start with
  | nil => exact h
  | cons m ms ih =>
    have hms := ih h.2.2
    rw [← hms]
    simp [CMember.totalSize, Nat.add_assoc]

/-- As no member is empty, no two of them start at the same offset. -/
lemma pairwise_offset {start stop : Nat} {ms : List Member} (h : Fill sizeOf start ms stop) :
    (∀ m ∈ ms, start ≤ m.offset) ∧ ms.Pairwise fun m n => m.offset < n.offset := by
  induction ms generalizing start with
  | nil => simp
  | cons m ms ih =>
    obtain ⟨rfl, hpos, hms⟩ := h
    obtain ⟨hle, hpair⟩ := ih hms
    refine ⟨List.forall_mem_cons.mpr ⟨Nat.le_refl _, fun n hn => ?_⟩,
      List.pairwise_cons.mpr ⟨?_, hpair⟩⟩
    · have := hle n hn
      omega
    · intro n hn
      have := hle n hn
      omega

/-- The name of padding has its offset in it, so no two names are the same. -/
lemma nodup_padding {start stop : Nat} {ms : List Member} (h : Fill sizeOf start ms stop)
    (hpadding : ∀ m ∈ ms, m.declared.isPadding = true →
      ∃ offset length, m = .padding offset length) :
    (((ms.map Member.declared).filter CMember.isPadding).map CMember.name).Nodup := by
  rw [List.filter_map, List.map_map, List.nodup_iff_pairwise_ne, List.pairwise_map]
  apply (h.pairwise_offset.2.filter _).imp_of_mem
  intro m n hm hn hlt heq
  obtain ⟨hm, hisPadding⟩ := List.mem_filter.mp hm
  obtain ⟨hn, hisPadding'⟩ := List.mem_filter.mp hn
  obtain ⟨_, _, rfl⟩ := hpadding m hm hisPadding
  obtain ⟨_, _, rfl⟩ := hpadding n hn hisPadding'
  have hrepr := repr_injective ((String.append_right_inj _).mp heq)
  exact Nat.ne_of_lt hlt hrepr

end Fill

/-! ### Uniforms as they are read -/

/-- A uniform that has a declaration in C: it has a type, its name and the host type given for it
are identifiers, and this host type is as large as the type that it stands for. -/
structure Uniform.IsDeclarable (types : NameTable String) (sizeOf : String → Nat) (u : Uniform) :
    Prop where
  supported : u.type ≠ .unsupported
  name : IsIdentifier u.name
  host : ∀ host, HostType.ofUniformType types u.type = .named host → IsIdentifier host
  size : ∀ host, HostType.ofUniformType types u.type = .named host → sizeOf host = u.type.size

namespace Uniform.IsDeclarable

variable {types : NameTable String} {u : Uniform}

lemma hostType_cases (h : u.IsDeclarable types sizeOf) :
    (∃ host, HostType.ofUniformType types u.type = .named host) ∨
      HostType.ofUniformType types u.type = .floats u.type.components := by
  have hname : ∃ name, u.type.name? = some name := by
    cases htype : u.type with
    | unsupported => exact absurd htype h.supported
    | _           => exact ⟨_, rfl⟩
  obtain ⟨name, hname⟩ := hname
  cases hfind : types.find? name with
  | none      => exact .inr (by simp [HostType.ofUniformType, hname, hfind])
  | some host => exact .inl ⟨host, by simp [HostType.ofUniformType, hname, hfind]⟩

lemma isReadable (h : u.IsDeclarable types sizeOf) : (u.field types).IsReadable := by
  have hfloat : IsIdentifier "float" := by decide
  rcases h.hostType_cases with ⟨host, hhost⟩ | hfloats
  · simpa only [field, hhost] using ⟨trivial, h.host host hhost, h.name⟩
  · simpa only [field, hfloats] using ⟨trivial, hfloat, h.name⟩

lemma prod_filter_ne_one (n : Nat) : ([n].filter (· ≠ 1)).prod = n := by
  by_cases hn : n = 1
  · simp [hn]
  · simp [hn]

/-- The declaration of a uniform takes as many bytes as the device does. -/
lemma size_declared (h : u.IsDeclarable types sizeOf) (hfloat : sizeOf "float" = 4) :
    (u.field types).declared.size sizeOf = u.hostSize := by
  rcases h.hostType_cases with ⟨host, hhost⟩ | hfloats
  · simp only [field, hhost, Member.declared, CMember.size, prod_filter_ne_one, h.size host hhost,
      hostSize]
  · have hcomponents : 4 * u.type.components = u.type.size := by cases u.type <;> rfl
    simp only [field, hfloats, Member.declared, CMember.size, List.prod_append, prod_filter_ne_one,
      hfloat, hostSize, ← hcomponents]
    rw [Nat.mul_assoc, Nat.mul_comm u.count]

lemma name_declared (h : u.IsDeclarable types sizeOf) : (u.field types).declared.name = u.name := by
  rcases h.hostType_cases with ⟨host, hhost⟩ | hfloats
  · simp only [field, hhost, Member.declared]
  · simp only [field, hfloats, Member.declared]

lemma isPadding_declared (h : u.IsDeclarable types sizeOf) (hbyte : sizeOf "uint8_t" = 1) :
    (u.field types).declared.isPadding = false := by
  rcases h.hostType_cases with ⟨host, hhost⟩ | hfloats
  · have hne : host ≠ "uint8_t" := by
      rintro rfl
      have hsize := (h.size _ hhost).symm.trans hbyte
      cases htype : u.type <;> simp [htype, UniformType.size] at hsize
    simp [field, hhost, Member.declared, CMember.isPadding, hne]
  · simp [field, hfloats, Member.declared, CMember.isPadding]

end Uniform.IsDeclarable

/-! ### The struct of a block -/

section Block

variable {types : NameTable String} {us : List Uniform} {cursor : Nat}

lemma fill_membersFrom (h : ∀ u ∈ us, u.IsDeclarable types sizeOf) (hbyte : sizeOf "uint8_t" = 1)
    (hfloat : sizeOf "float" = 4) (hfollow : FollowFrom cursor us) :
    Fill sizeOf cursor (membersFrom types cursor us) (stopFrom cursor us) := by
  induction us generalizing cursor with
  | nil => rfl
  | cons u us ih =>
    obtain ⟨hu, hus⟩ := List.forall_mem_cons.mp h
    obtain ⟨hcount, hle, -, hfollow⟩ := hfollow
    have hsize := hu.size_declared hfloat
    have hpos : 0 < u.type.size := by
      cases htype : u.type with
      | unsupported => exact absurd htype hu.supported
      | _           => decide
    refine (Fill.pad hbyte hle).append ⟨rfl, ?_, ?_⟩
    · rw [hsize]
      exact Nat.mul_pos hpos (Nat.pos_of_ne_zero hcount)
    · rw [hsize, stopFrom_cons]
      exact ih hus hfollow

lemma filter_pad (start stop : Nat) :
    (pad start stop).filter (fun m => !m.declared.isPadding) = [] := by
  apply List.filter_eq_nil_iff.mpr
  intro m hm
  rw [eq_padding_of_mem_pad hm]
  simp [Member.declared, CMember.isPadding]

/-- A member is padding or the field of a uniform. -/
lemma mem_membersFrom {m : Member} (hm : m ∈ membersFrom types cursor us) :
    (∃ start length, m = .padding start length) ∨ ∃ u ∈ us, m = u.field types := by
  induction us generalizing cursor with
  | nil => cases hm
  | cons u us ih =>
    rw [membersFrom, List.mem_append, List.mem_cons] at hm
    rcases hm with hm | rfl | hm
    · exact .inl ⟨_, _, eq_padding_of_mem_pad hm⟩
    · exact .inr ⟨u, List.mem_cons_self, rfl⟩
    · rcases ih hm with hpadding | ⟨v, hv, h⟩
      · exact .inl hpadding
      · exact .inr ⟨v, List.mem_cons_of_mem _ hv, h⟩

/-- Only padding is left out if the fields are looked for. -/
lemma filter_membersFrom (h : ∀ u ∈ us, u.IsDeclarable types sizeOf)
    (hbyte : sizeOf "uint8_t" = 1) :
    (membersFrom types cursor us).filter (fun m => !m.declared.isPadding) =
      us.map (Uniform.field types) := by
  induction us generalizing cursor with
  | nil => rfl
  | cons u us ih =>
    obtain ⟨hu, hus⟩ := List.forall_mem_cons.mp h
    simp [membersFrom, filter_pad, hu.isPadding_declared hbyte, ih hus]

end Block

namespace HostStruct

variable {types : NameTable String} {b : Block} {s : HostStruct}

/-- A member of a host struct is padding or the field of a uniform. -/
lemma mem_members (hs : ofBlock? types b = .ok s) {m : Member} (hm : m ∈ s.members) :
    (∃ start length, m = .padding start length) ∨ ∃ u ∈ b.uniforms, m = u.field types := by
  rw [members_eq hs, List.mem_append] at hm
  rcases hm with hm | hm
  · exact mem_membersFrom hm
  · exact .inl ⟨_, _, eq_padding_of_mem_pad hm⟩

lemma fill_members (hs : ofBlock? types b = .ok s)
    (h : ∀ u ∈ b.uniforms, u.IsDeclarable types sizeOf) (hbyte : sizeOf "uint8_t" = 1)
    (hfloat : sizeOf "float" = 4) : Fill sizeOf 0 s.members s.size := by
  obtain ⟨-, hfollow, -, rfl⟩ := ofBlock?_eq_ok_iff.mp hs
  exact (fill_membersFrom h hbyte hfloat hfollow).append (.pad hbyte (le_strideAbove _))

/-- Leaving out the padding, the fields are those of the uniforms in their order. -/
lemma filter_members (hs : ofBlock? types b = .ok s)
    (h : ∀ u ∈ b.uniforms, u.IsDeclarable types sizeOf) (hbyte : sizeOf "uint8_t" = 1) :
    s.members.filter (fun m => !m.declared.isPadding) = b.uniforms.map (Uniform.field types) := by
  rw [members_eq hs, List.filter_append, filter_membersFrom h hbyte, filter_pad, List.append_nil]

lemma dvd_size (hs : ofBlock? types b = .ok s) : blockStride ∣ s.size := by
  obtain ⟨-, -, -, rfl⟩ := ofBlock?_eq_ok_iff.mp hs
  exact dvd_strideAbove _

/-- What stands between the braces of a host struct is read as a packed struct of the same size.
Leaving out the padding, its members are the uniforms of the block, in their order and with their
offsets and sizes. The size is a multiple of the alignment, and no two names of padding are the
same. -/
theorem members_read_at_offsets (hs : ofBlock? types b = .ok s)
    (h : ∀ u ∈ b.uniforms, u.IsDeclarable types sizeOf) (hbyte : sizeOf "uint8_t" = 1)
    (hfloat : sizeOf "float" = 4) (qualifier : String) :
    ∃ ms, CMember.readAll? (joinLines (structBody (s.lines qualifier))) = some ms ∧
      ((CMember.place sizeOf 0 ms).filter fun m => !m.1.isPadding).map
          (fun m => (m.1.name, m.2, m.1.size sizeOf)) =
        b.uniforms.map (fun u => (u.name, u.offset, u.type.size * u.count)) ∧
      CMember.totalSize sizeOf ms = s.size ∧ blockStride ∣ s.size ∧
      ((ms.filter CMember.isPadding).map CMember.name).Nodup := by
  have hfill := fill_members hs h hbyte hfloat
  have hfields := filter_members hs h hbyte
  rw [structBody_lines]
  refine ⟨s.members.map Member.declared, readAll?_joinLines ?_, ?_, ?_, dvd_size hs,
    hfill.nodup_padding ?_⟩
  · -- the names of padding are made up, and those of fields are identifiers
    intro m hm
    rcases mem_members hs hm with ⟨_, _, rfl⟩ | ⟨u, hu, rfl⟩
    · exact Member.isReadable_padding _ _
    · exact (h u hu).isReadable
  · -- the compiler's offsets are those of the layout, in which the fields have the device's
    rw [hfill.place_eq, List.filter_map, List.map_map]
    change (s.members.filter (fun m => !m.declared.isPadding)).map _ = _
    rw [hfields, List.map_map]
    apply List.map_congr_left
    intro u hu
    have hoffset : (u.field types).offset = u.offset := rfl
    simp only [Function.comp_apply, (h u hu).name_declared, (h u hu).size_declared hfloat,
      hoffset, Uniform.hostSize]
  · simpa using hfill.add_totalSize
  · -- only padding is made of bytes
    intro m hm hisPadding
    apply (mem_members hs hm).resolve_right
    rintro ⟨u, hu, rfl⟩
    simp [(h u hu).isPadding_declared hbyte] at hisPadding

end HostStruct

namespace Sample

/-- A block with an array, a gap in the middle and one at the end. -/
def lights : Block :=
  ⟨"lights", 2, 112,
    [⟨"falloff", .float, 0, 3⟩, ⟨"model", .mat4, 16, 1⟩, ⟨"tints", .float3, 80, 2⟩]⟩

/-- Matrices have a host type. -/
def lightTypes : NameTable String :=
  .ofList [("mat4", "matrix_t")]

/-- The sizes of the types in C. -/
def lightSizes (type : String) : Nat :=
  if type = "uint8_t" then 1 else if type = "matrix_t" then 64 else 4

theorem members_read_at_offsets_of_lights :
    ∃ s ms, HostStruct.ofBlock? lightTypes lights = .ok s ∧
      CMember.readAll? (joinLines (structBody (s.lines "demo_"))) = some ms ∧
      ((CMember.place lightSizes 0 ms).filter fun m => !m.1.isPadding).map
          (fun m => (m.1.name, m.2, m.1.size lightSizes)) =
        [("falloff", 0, 12), ("model", 16, 64), ("tints", 80, 24)] ∧
      CMember.totalSize lightSizes ms = 112 := by
  have hdeclarable : ∀ u ∈ lights.uniforms, u.IsDeclarable lightTypes lightSizes := by
    simp only [lights, List.forall_mem_cons]
    refine ⟨⟨by decide, by decide, ?_, ?_⟩, ⟨by decide, by decide, ?_, ?_⟩,
      ⟨by decide, by decide, ?_, ?_⟩, by simp⟩
    all_goals rintro _ ⟨⟩
    all_goals decide
  obtain ⟨ms, hread, hplace, hsize, -⟩ :=
    HostStruct.members_read_at_offsets rfl hdeclarable rfl rfl "demo_"
  exact ⟨_, ms, rfl, hread, hplace, hsize⟩

end Sample

end ShaderHeader
