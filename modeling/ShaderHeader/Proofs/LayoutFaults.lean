import ShaderHeader.Proofs.WordLayout

/-!
# Faults of blocks

A block that has no host struct has exactly one fault, which is known from the block alone: its
declared size cannot be rounded up, a uniform of it does not fit behind the uniforms in front of it,
or all of them together are larger than the block. Of several uniforms that do not fit, the first
one counts. Where uniforms end is computed without a bound here, although a layout counts in words.
-/

namespace ShaderHeader

open Check

variable {types : NameTable String}

/-! ### Uniforms -/

/-- What is wrong with a uniform if the one in front of it ends at the cursor. An empty array is
reported before an overlap, and both are reported before an end that is no word. -/
def Uniform.fault? (cursor : Nat) (u : Uniform) : Option LayoutFault :=
  if u.count = 0 then some (.emptyArray u.name)
  else if u.offset < cursor then some (.overlap u.name u.offset cursor)
  else if wordLimit ≤ u.stop then some (.memberOverflow u.name)
  else none

lemma Uniform.fault?_eq_none_iff {cursor : Nat} {u : Uniform} :
    u.fault? cursor = none ↔ u.count ≠ 0 ∧ cursor ≤ u.offset ∧ u.stop < wordLimit := by
  unfold fault?
  split_ifs with hcount hoffset hstop
  · simp [hcount]
  · simp [Nat.not_le.mpr hoffset]
  · simp [Nat.not_lt.mpr hstop]
  · simp [hcount, Nat.le_of_not_lt hoffset, Nat.lt_of_not_le hstop]

lemma followFrom_cons_iff {cursor : Nat} {u : Uniform} {us : List Uniform} :
    FollowFrom cursor (u :: us) ↔ u.fault? cursor = none ∧ FollowFrom u.stop us := by
  simp only [FollowFrom, Uniform.fault?_eq_none_iff, and_assoc]

/-- The first of some uniforms that has a fault, with the end of those in front of it. -/
def FirstFault (cursor : Nat) (us : List Uniform) (fault : LayoutFault) : Prop :=
  ∃ before u after, us = before ++ u :: after ∧ FollowFrom cursor before ∧
    u.fault? (stopFrom cursor before) = some fault

lemma firstFault_cons_iff {cursor : Nat} {u : Uniform} {us : List Uniform} {fault : LayoutFault} :
    FirstFault cursor (u :: us) fault ↔
      u.fault? cursor = some fault ∨ u.fault? cursor = none ∧ FirstFault u.stop us fault := by
  constructor
  · rintro ⟨before, v, after, heq, hfollow, hfault⟩
    rcases List.cons_eq_append_iff.mp heq with ⟨rfl, hcons⟩ | ⟨before, rfl, rfl⟩
    · obtain ⟨rfl, -⟩ := List.cons.inj hcons
      exact .inl hfault
    · obtain ⟨hu, hfollow⟩ := followFrom_cons_iff.mp hfollow
      rw [stopFrom_cons] at hfault
      exact .inr ⟨hu, before, v, after, rfl, hfollow, hfault⟩
  · rintro (hfault | ⟨hu, before, v, after, rfl, hfollow, hfault⟩)
    · exact ⟨[], u, us, rfl, trivial, hfault⟩
    · refine ⟨u :: before, v, after, rfl, followFrom_cons_iff.mpr ⟨hu, hfollow⟩, ?_⟩
      rwa [stopFrom_cons]

lemma placeUniforms_cons (cursor : Nat) (u : Uniform) (us : List Uniform) :
    placeUniforms types cursor (u :: us) =
      match u.fault? cursor with
      | some fault => .error fault
      | none       => do
        let (members, last) ← placeUniforms types u.stop us
        return (pad cursor u.offset ++ u.field types :: members, last) := by
  rw [placeUniforms, Uniform.fault?]
  split_ifs with hcount hoffset hstop
  · rfl
  · rfl
  · have hend : u.end? = none := by
      cases hend : u.end? with
      | none   => rfl
      | some n => exact absurd (Uniform.end?_eq_some_iff.mp hend).1 (Nat.not_lt.mpr hstop)
    rw [hend]
  · rw [Uniform.end?_eq_some_iff.mpr ⟨Nat.lt_of_not_le hstop, rfl⟩]
    rfl

/-- Uniforms cannot be placed if one of them has a fault, and then the first fault is reported. -/
lemma placeUniforms_eq_error_iff {cursor : Nat} {us : List Uniform} {fault : LayoutFault} :
    placeUniforms types cursor us = .error fault ↔ FirstFault cursor us fault := by
  induction us generalizing cursor with
  | nil => simp [placeUniforms, FirstFault]
  | cons u us ih =>
    rw [placeUniforms_cons, firstFault_cons_iff, ← ih]
    cases hu : u.fault? cursor with
    | some first => simp
    | none       => simp [bind_eq_error_iff, pure, Except.pure]

/-! ### Blocks -/

/-- The fault of a block. -/
inductive Block.HasFault (b : Block) : LayoutFault → Prop
  /-- The declared size is beyond the largest multiple of the stride that is a word. -/
  | size (lt : wordLimit - blockStride < b.size) : b.HasFault (.blockOverflow b.size)
  /-- A uniform does not fit. -/
  | uniform {fault : LayoutFault} (le : b.size ≤ wordLimit - blockStride)
    (first : FirstFault 0 b.uniforms fault) : b.HasFault fault
  /-- All uniforms fit, but the last one ends beyond the block. -/
  | oversized (le : b.size ≤ wordLimit - blockStride) (follow : FollowFrom 0 b.uniforms)
    (lt : strideAbove b.size < b.stop) : b.HasFault (.oversized b.stop (strideAbove b.size))

lemma Block.size_le_iff {b : Block} :
    b.size ≤ wordLimit - blockStride ↔ b.size + 15 < wordLimit := by
  unfold wordLimit blockStride; omega

/-- The uniforms of a block never report its size. -/
lemma FirstFault.ne_blockOverflow {cursor size : Nat} {us : List Uniform} :
    ¬ FirstFault cursor us (.blockOverflow size) := by
  rintro ⟨before, u, after, -, -, hfault⟩
  unfold Uniform.fault? at hfault
  split_ifs at hfault <;> cases hfault

lemma Block.HasFault.eq_blockOverflow_iff {b : Block} {size : Nat} :
    b.HasFault (.blockOverflow size) ↔ size = b.size ∧ wordLimit - blockStride < b.size := by
  constructor
  · intro h
    cases h with
    | size lt         => exact ⟨rfl, lt⟩
    | uniform _ first => exact absurd first FirstFault.ne_blockOverflow
  · rintro ⟨rfl, hlt⟩
    exact .size hlt

namespace HostStruct

variable {b : Block} {fault : LayoutFault}

/-- A block that is small enough fails because of its uniforms or because they need too much room,
never when the end of the last uniform is rounded. -/
lemma ofBlock?_eq_error_iff : ofBlock? types b = .error fault ↔ b.HasFault fault := by
  rw [ofBlock?]
  cases hrounded : b.roundedSize? with
  | none =>
    -- the size cannot be rounded, which comes before all other faults
    have hlt : wordLimit - blockStride < b.size := by
      by_contra hle
      have hsize := Block.size_le_iff.mp (Nat.le_of_not_lt hle)
      simp [Block.roundedSize?_eq_some_iff.mpr ⟨hsize, rfl⟩] at hrounded
    constructor
    · rintro ⟨⟩
      exact .size hlt
    · intro h
      cases h with
      | size         => rfl
      | uniform le   => exact absurd le (Nat.not_le.mpr hlt)
      | oversized le => exact absurd le (Nat.not_le.mpr hlt)
  | some declared =>
    obtain ⟨hsize, rfl⟩ := Block.roundedSize?_eq_some_iff.mp hrounded
    have hle := Block.size_le_iff.mpr hsize
    simp only [bind_eq_error_iff, Prod.exists, placeUniforms_eq_error_iff, placeUniforms_eq_ok_iff]
    constructor
    · -- the uniforms fail, or they succeed and what comes after them fails
      rintro (hfirst | ⟨_, _, ⟨hfollow, -, rfl⟩, h⟩)
      · exact .uniform hle hfirst
      · rw [← Block.stop] at h
        split_ifs at h with hover
        · cases h
          exact .oversized hle hfollow hover
        · -- a struct within its block has a size that can be rounded
          rw [Block.roundUp?_stop hsize (Nat.le_of_not_lt hover)] at h
          cases h
    · intro h
      cases h with
      | size lt               => exact absurd hle (Nat.not_le.mpr lt)
      | uniform _ first       => exact .inl first
      | oversized _ follow lt =>
        refine .inr ⟨_, _, ⟨follow, rfl, rfl⟩, ?_⟩
        rw [← Block.stop, if_pos lt]

/-- A block has no host struct exactly if it has a fault, which is then the one reported. Its size
is reported exactly if it is beyond the largest multiple of the stride that is a word. So rounding
what the uniforms need always succeeds. All this stays true if the block is laid out in words, where
sums and products may wrap. -/
theorem refuses_first_fault (types : NameTable String) (b : Block) :
    (∀ fault, ofBlock? types b = .error fault ↔ b.HasFault fault) ∧
    (∀ size, ofBlock? types b = .error (.blockOverflow size) ↔
      size = b.size ∧ wordLimit - blockStride < b.size) ∧
    ((∃ s, ofBlock? types b = .ok s) ↔
      b.size ≤ wordLimit - blockStride ∧ FollowFrom 0 b.uniforms ∧
        b.stop ≤ strideAbove b.size) ∧
    (b.size ≤ wordLimit - blockStride →
      b.roundedSize? = some (strideAbove b.size) ∧
        (b.stop ≤ strideAbove b.size →
          roundUp? b.stop blockStride = some (strideAbove b.stop))) ∧
    (b.InWords → Words.hostStruct? types b = ofBlock? types b) := by
  refine ⟨fun fault => ofBlock?_eq_error_iff, fun size => ?_, ?_, fun hle => ?_,
    Words.hostStruct?_eq⟩
  · exact ofBlock?_eq_error_iff.trans Block.HasFault.eq_blockOverflow_iff
  · constructor
    · rintro ⟨s, hs⟩
      obtain ⟨hsize, hfollow, hle, -⟩ := ofBlock?_eq_ok_iff.mp hs
      exact ⟨Block.size_le_iff.mpr hsize, hfollow, hle⟩
    · rintro ⟨hsize, hfollow, hle⟩
      exact ⟨_, ofBlock?_eq_ok_iff.mpr ⟨Block.size_le_iff.mp hsize, hfollow, hle, rfl⟩⟩
  · have hsize := Block.size_le_iff.mp hle
    exact ⟨Block.roundedSize?_eq_some_iff.mpr ⟨hsize, rfl⟩, Block.roundUp?_stop hsize⟩

end HostStruct

namespace Sample

/-- A block whose second uniform starts within the first one, and whose end is no word. -/
def crossed : Block :=
  ⟨"params", 0, 32, [⟨"color", .float4, 0, 1⟩, ⟨"bones", .mat4, 8, 0x4000000⟩]⟩

/-- A block whose last uniform ends within a stride. -/
def snug : Block :=
  ⟨"params", 0, 20, [⟨"color", .float4, 0, 1⟩, ⟨"mix", .float, 16, 1⟩]⟩

/-- The overlap is reported first, although the end of the same uniform is no word and although the
block is too small. The other block has a struct. -/
theorem refuses_first_fault_of_crossed :
    Words.hostStruct? .empty crossed = .error (.overlap "bones" 8 16) ∧
    (∀ size, HostStruct.ofBlock? .empty crossed ≠ .error (.blockOverflow size)) ∧
    (∃ s, HostStruct.ofBlock? .empty snug = .ok s) ∧
    snug.roundedSize? = some 32 ∧ roundUp? snug.stop blockStride = some 32 := by
  have hwords : crossed.InWords := by
    refine ⟨by decide, fun u hu => ?_⟩
    rcases List.mem_pair.mp hu with rfl | rfl
    · exact ⟨by decide, by decide⟩
    · exact ⟨by decide, by decide⟩
  obtain ⟨hfault, hsize, -, -, hsame⟩ := HostStruct.refuses_first_fault .empty crossed
  obtain ⟨-, -, hok, hround, -⟩ := HostStruct.refuses_first_fault .empty snug
  have hfits : snug.stop ≤ strideAbove snug.size := by decide
  obtain ⟨hdeclared, hstop⟩ := hround (by decide)
  refine ⟨?_, fun size h => ?_, ?_, hdeclared, hstop hfits⟩
  · -- `color` fits, and `bones` starts within it
    rw [hsame hwords, hfault]
    have hcolor : FollowFrom 0 [⟨"color", .float4, 0, 1⟩] :=
      ⟨by decide, by decide, by decide, trivial⟩
    exact .uniform (by decide) ⟨_, _, [], rfl, hcolor, by decide⟩
  · exact absurd ((hsize size).mp h).2 (by decide)
  · exact hok.mpr ⟨by decide, ⟨by decide, by decide, by decide, by decide, by decide, by decide,
      trivial⟩, hfits⟩

end Sample

end ShaderHeader
