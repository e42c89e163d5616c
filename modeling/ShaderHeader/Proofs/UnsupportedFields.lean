import ShaderHeader.Header.Declarations
import ShaderHeader.Proofs.StructText

/-!
# Fields without a type

A uniform of a type that the host cannot express takes no bytes. In place of its field there is a
marker, so that nobody fills it by accident, and each marker comes with a warning. The fields of all
other uniforms are where they would be without it.
-/

namespace ShaderHeader

open Reading

/-! ### Markers -/

/-- The line of a field without a type. -/
def unsupportedMarker : String :=
  "    INVALID_UNIFORM_TYPE;"

lemma ne_unsupportedMarker {line : String} (h : line.toList.head? ≠ some ' ') :
    line ≠ unsupportedMarker := by
  rintro rfl
  exact h (by decide)

/-- In all other members there is a blank between the type and the name. -/
lemma Member.line_eq_unsupportedMarker_iff {m : Member} :
    m.line = unsupportedMarker ↔ ¬ m.IsSupported := by
  constructor
  · intro hline hsupported
    have hcount := congrArg (fun line => line.toList.count ' ') hline
    have hmarker : unsupportedMarker.toList.count ' ' = 4 := by decide
    rw [line_eq hsupported, hmarker] at hcount
    simp at hcount
  · intro hsupported
    cases m with
    | padding _ _ => exact absurd trivial hsupported
    | field _ _ type _ =>
      cases type with
      | unsupported => rfl
      | _           => exact absurd trivial hsupported

/-- Only unsupported types have no host type. -/
lemma HostType.ofUniformType_eq_unsupported_iff (types : NameTable String) (t : UniformType) :
    ofUniformType types t = .unsupported ↔ t = .unsupported := by
  constructor
  · intro h
    cases t with
    | unsupported => rfl
    | _ =>
      simp only [ofUniformType, UniformType.name?] at h
      split at h <;> cases h
  · rintro rfl
    rfl

lemma Uniform.isSupported_field_iff {types : NameTable String} {u : Uniform} :
    (u.field types).IsSupported ↔ u.type ≠ .unsupported := by
  rw [ne_eq, ← HostType.ofUniformType_eq_unsupported_iff types, field]
  cases HostType.ofUniformType types u.type <;> simp [Member.IsSupported]

/-! ### Warnings -/

/-- One warning for each uniform of a block that has an unsupported type. -/
def Block.warnings (b : Block) : List Warning :=
  (b.uniforms.filter fun u => u.type = .unsupported).map fun u => .unsupported b.name u.name

/-- The warning for a member of a struct, if there is one. -/
def Member.warning? (block : String) : Member → Option Warning
  | field name _ .unsupported _ => some (.unsupported block name)
  | _                           => none

lemma Member.isSome_warning? (block : String) (m : Member) :
    (m.warning? block).isSome = decide (m.line = unsupportedMarker) := by
  rw [Bool.eq_iff_iff, decide_eq_true_eq, line_eq_unsupportedMarker_iff]
  cases m with
  | padding _ _      => simp [warning?, IsSupported]
  | field _ _ type _ => cases type <;> simp [warning?, IsSupported]

lemma warning?_field (types : NameTable String) (block : String) (u : Uniform) :
    (u.field types).warning? block =
      if u.type = .unsupported then some (.unsupported block u.name) else none := by
  simp only [← HostType.ofUniformType_eq_unsupported_iff types, Uniform.field]
  cases HostType.ofUniformType types u.type <;> simp [Member.warning?]

lemma filterMap_warning?_pad (block : String) (start stop : Nat) :
    (pad start stop).filterMap (Member.warning? block) = [] := by
  refine List.filterMap_eq_nil_iff.mpr fun m hm => ?_
  rw [eq_padding_of_mem_pad hm]
  rfl

lemma filterMap_warning?_membersFrom (types : NameTable String) (block : String) (cursor : Nat)
    (us : List Uniform) :
    (membersFrom types cursor us).filterMap (Member.warning? block) =
      (us.filter fun u => u.type = .unsupported).map fun u => .unsupported block u.name := by
  induction us generalizing cursor with
  | nil => rfl
  | cons u us ih =>
    rw [membersFrom, List.filterMap_append, filterMap_warning?_pad, List.nil_append,
      List.filterMap_cons, warning?_field, ih]
    by_cases h : u.type = .unsupported
    · simp [h]
    · simp [h]

/-- Each marker comes with one warning. -/
lemma markers_map_line (block : String) (ms : List Member) :
    (ms.map Member.line).filter (· = unsupportedMarker) =
      (ms.filterMap (Member.warning? block)).map fun _ => unsupportedMarker := by
  induction ms with
  | nil => rfl
  | cons m ms ih =>
    have hm := m.isSome_warning? block
    rw [List.map_cons, List.filter_cons, List.filterMap_cons, ih, ← hm]
    cases hwarning : m.warning? block with
    | none   => rfl
    | some w =>
      rw [hwarning, Option.isSome_some, eq_comm, decide_eq_true_eq] at hm
      simp [hm]

namespace HostStruct

lemma warnings_eq (s : HostStruct) :
    s.warnings = s.members.filterMap (Member.warning? s.block) := by
  refine List.filterMap_congr fun m _ => ?_
  cases m with
  | padding _ _      => rfl
  | field _ _ type _ => cases type <;> rfl

/-- The warnings of a struct are those of its block. -/
lemma warnings_of_ofBlock? {types : NameTable String} {b : Block} {s : HostStruct}
    (hs : ofBlock? types b = .ok s) : s.warnings = b.warnings := by
  rw [warnings_eq, members_eq hs, (block_slot_of_ofBlock? hs).1, List.filterMap_append,
    filterMap_warning?_membersFrom, filterMap_warning?_pad, List.append_nil, Block.warnings]

/-- The markers in the text of a struct stand for its warnings. -/
lemma markers_lines (qualifier : String) (s : HostStruct) :
    (s.lines qualifier).filter (· = unsupportedMarker) =
      s.warnings.map fun _ => unsupportedMarker := by
  have hpush : "#pragma pack(push,1)" ≠ unsupportedMarker := by decide
  have hpop : "#pragma pack(pop)" ≠ unsupportedMarker := by decide
  simp only [lines, List.filter_append, markers_map_line s.block, ← warnings_eq]
  simp [Constant.line, ne_unsupportedMarker, hpush, hpop]

end HostStruct

/-- Each marker in the declarations comes with one warning. -/
lemma Declarations.markers_lines (d : Declarations) :
    d.lines.filter (· = unsupportedMarker) = d.warnings.map fun _ => unsupportedMarker := by
  have halignment : alignmentLines.filter (· = unsupportedMarker) = [] := by decide
  have hconstants (ks : List Constant) :
      (ks.map Constant.line).filter (· = unsupportedMarker) = [] := by
    simp [Constant.line, ne_unsupportedMarker]
  simp only [lines, warnings, List.filter_append, halignment, hconstants, List.nil_append,
    List.filter_flatMap, HostStruct.markers_lines, List.map_flatMap]

/-! ### Reading past the markers -/

section Reading

variable {types : NameTable String} {sizeOf : String → Nat} {us : List Uniform} {cursor : Nat}

lemma filter_line_pad (start stop : Nat) :
    (pad start stop).filter (fun m => m.line ≠ unsupportedMarker) = pad start stop := by
  refine List.filter_eq_self.mpr fun m hm => ?_
  rw [eq_padding_of_mem_pad hm, decide_eq_true_eq, ne_eq, Member.line_eq_unsupportedMarker_iff]
  exact not_not_intro trivial

lemma Uniform.stop_of_unsupported {u : Uniform} (h : u.type = .unsupported) :
    u.stop = u.offset := by
  simp [stop, hostSize, h, UniformType.size]

lemma Uniform.line_field_eq_iff {u : Uniform} :
    (u.field types).line = unsupportedMarker ↔ u.type = .unsupported := by
  rw [Member.line_eq_unsupportedMarker_iff, isSupported_field_iff, ne_eq, not_not]

/-- A field without a type leaves no gap. -/
lemma fill_filter_membersFrom
    (h : ∀ u ∈ us, u.type ≠ .unsupported → u.IsDeclarable types sizeOf)
    (hbyte : sizeOf "uint8_t" = 1) (hfloat : sizeOf "float" = 4) (hfollow : FollowFrom cursor us) :
    Fill sizeOf cursor ((membersFrom types cursor us).filter (fun m => m.line ≠ unsupportedMarker))
      (stopFrom cursor us) := by
  induction us generalizing cursor with
  | nil => rfl
  | cons u us ih =>
    obtain ⟨hu, hus⟩ := List.forall_mem_cons.mp h
    obtain ⟨hcount, hle, -, hfollow⟩ := hfollow
    have hpad : Fill sizeOf cursor (pad cursor u.offset) u.offset := .pad hbyte hle
    have hrest := ih hus hfollow
    rw [membersFrom, List.filter_append, filter_line_pad, stopFrom_cons]
    by_cases htype : u.type = .unsupported
    · -- no bytes are left out: the next member starts where the marker stands
      rw [List.filter_cons_of_neg (by simp [Uniform.line_field_eq_iff, htype])]
      rw [Uniform.stop_of_unsupported htype] at hrest ⊢
      exact hpad.append hrest
    · -- the line of a supported uniform stays, with the bytes of the uniform
      have hsize := (hu htype).size_declared hfloat
      have hpos : 0 < u.type.size := by
        cases htype' : u.type with
        | unsupported => exact absurd htype' htype
        | _           => decide
      rw [List.filter_cons_of_pos (by simp [Uniform.line_field_eq_iff, htype])]
      refine hpad.append ⟨rfl, ?_, ?_⟩
      · rw [hsize]
        exact Nat.mul_pos hpos (Nat.pos_of_ne_zero hcount)
      · rw [hsize]
        exact hrest

/-- Past padding and markers there are the fields of all uniforms with a type. -/
lemma filter_filter_membersFrom
    (h : ∀ u ∈ us, u.type ≠ .unsupported → u.IsDeclarable types sizeOf)
    (hbyte : sizeOf "uint8_t" = 1) :
    ((membersFrom types cursor us).filter (fun m => m.line ≠ unsupportedMarker)).filter
        (fun m => !m.declared.isPadding) =
      (us.filter fun u => u.type ≠ .unsupported).map (Uniform.field types) := by
  induction us generalizing cursor with
  | nil => rfl
  | cons u us ih =>
    obtain ⟨hu, hus⟩ := List.forall_mem_cons.mp h
    rw [membersFrom, List.filter_append, filter_line_pad, List.filter_append, filter_pad,
      List.nil_append]
    by_cases htype : u.type = .unsupported
    · rw [List.filter_cons_of_neg (by simp [Uniform.line_field_eq_iff, htype]), ih hus,
        List.filter_cons_of_neg (by simp [htype])]
    · rw [List.filter_cons_of_pos (by simp [Uniform.line_field_eq_iff, htype]),
        List.filter_cons_of_pos (by simp [(hu htype).isPadding_declared hbyte]), ih hus,
        List.filter_cons_of_pos (by simp [htype]), List.map_cons]

end Reading

namespace HostStruct

/-- The members that are declared in C. -/
def supportedMembers (s : HostStruct) : List Member :=
  s.members.filter fun m => m.line ≠ unsupportedMarker

/-- What a C compiler finds in a struct if the markers are left out: the fields with their offsets
and sizes. -/
def fields? (sizeOf : String → Nat) (s : HostStruct) : Option (List (String × Nat × Nat)) :=
  (CMember.readAll? (joinLines ((s.members.map Member.line).filter (· ≠ unsupportedMarker)))).map
    fun ms => ((CMember.place sizeOf 0 ms).filter fun m => !m.1.isPadding).map
      fun m => (m.1.name, m.2, m.1.size sizeOf)

section Reading

variable {types : NameTable String} {sizeOf : String → Nat} {b : Block} {s : HostStruct}

lemma supportedMembers_eq (hs : ofBlock? types b = .ok s) :
    s.supportedMembers =
      (membersFrom types 0 b.uniforms).filter (fun m => m.line ≠ unsupportedMarker) ++
        pad b.stop s.size := by
  rw [supportedMembers, members_eq hs, List.filter_append, filter_line_pad]

lemma readAll?_supportedMembers (hs : ofBlock? types b = .ok s)
    (h : ∀ u ∈ b.uniforms, u.type ≠ .unsupported → u.IsDeclarable types sizeOf) :
    CMember.readAll? (joinLines ((s.members.map Member.line).filter (· ≠ unsupportedMarker))) =
      some (s.supportedMembers.map Member.declared) := by
  rw [List.filter_map]
  refine readAll?_joinLines fun m hm => ?_
  obtain ⟨hm, hline⟩ := List.mem_filter.mp hm
  rcases mem_members hs hm with ⟨_, _, rfl⟩ | ⟨u, hu, rfl⟩
  · exact Member.isReadable_padding _ _
  · exact (h u hu (by simpa [Uniform.line_field_eq_iff] using hline)).isReadable

/-- All uniforms that have a type are found at their offsets. -/
lemma fields?_of_ofBlock? (hs : ofBlock? types b = .ok s)
    (h : ∀ u ∈ b.uniforms, u.type ≠ .unsupported → u.IsDeclarable types sizeOf)
    (hbyte : sizeOf "uint8_t" = 1) (hfloat : sizeOf "float" = 4) :
    s.fields? sizeOf = some ((b.uniforms.filter fun u => u.type ≠ .unsupported).map
      fun u => (u.name, u.offset, u.type.size * u.count)) := by
  have hfill : Fill sizeOf 0 s.supportedMembers s.size := by
    rw [supportedMembers_eq hs]
    obtain ⟨-, hfollow, -, rfl⟩ := ofBlock?_eq_ok_iff.mp hs
    exact (fill_filter_membersFrom h hbyte hfloat hfollow).append (.pad hbyte (le_strideAbove _))
  have hfields : s.supportedMembers.filter (fun m => !m.declared.isPadding) =
      (b.uniforms.filter fun u => u.type ≠ .unsupported).map (Uniform.field types) := by
    rw [supportedMembers_eq hs, List.filter_append, filter_filter_membersFrom h hbyte, filter_pad,
      List.append_nil]
  rw [fields?, readAll?_supportedMembers hs h, Option.map_some, hfill.place_eq, List.filter_map,
    List.map_map]
  change some ((s.supportedMembers.filter fun m => !m.declared.isPadding).map _) = _
  rw [hfields, List.map_map]
  refine congrArg some (List.map_congr_left fun u hu => ?_)
  obtain ⟨hu, htype⟩ := List.mem_filter.mp hu
  have hdeclarable := h u hu (by simpa using htype)
  have hoffset : (u.field types).offset = u.offset := rfl
  simp only [Function.comp_apply, hdeclarable.name_declared, hdeclarable.size_declared hfloat,
    hoffset, Uniform.hostSize]

end Reading

end HostStruct

end ShaderHeader
