import ShaderHeader.Proofs.Layout

/-!
# Layouts in words

The host counts bytes in words of 32 bits. Here a block is laid out in such words, whose sums,
products and differences wrap. The outcome is that of `HostStruct.ofBlock?`, which counts without a
bound. So whatever wraps is noticed, and differences never do.
-/

namespace ShaderHeader

namespace Words

/-- The padding between two words. -/
def pad (start stop : UInt32) : List Member :=
  if start < stop then [.padding start.toNat (stop - start).toNat] else []

/-- The members for some uniforms, and the word where the last one ends. -/
def placeUniforms (types : NameTable String) :
    UInt32 → List Uniform → Except LayoutFault (List Member × UInt32)
  | cursor, []      => .ok ([], cursor)
  | cursor, u :: us =>
    let offset := UInt32.ofNat u.offset
    let count := UInt32.ofNat u.count
    if count = 0 then .error (.emptyArray u.name)
    else if offset < cursor then .error (.overlap u.name offset.toNat cursor.toNat)
    else
      match (mul? (.ofNat u.type.size) count).bind (add? offset) with
      | none      => .error (.memberOverflow u.name)
      | some next => do
        let (members, last) ← placeUniforms types next us
        let field := .field u.name offset.toNat (.ofUniformType types u.type) count.toNat
        return (pad cursor offset ++ field :: members, last)

/-- Lays a block out in words. -/
def hostStruct? (types : NameTable String) (b : Block) : Except LayoutFault HostStruct :=
  let size := UInt32.ofNat b.size
  let stride := UInt32.ofNat blockStride
  match roundUp? size stride with
  | none          => .error (.blockOverflow size.toNat)
  | some declared => do
    let (members, last) ← placeUniforms types 0 b.uniforms
    if declared < last then .error (.oversized last.toNat declared.toNat)
    else
      match roundUp? last stride with
      | none      => .error (.blockOverflow last.toNat)
      | some size => .ok ⟨b.name, b.slot, members ++ pad last size, size.toNat⟩

lemma pad_eq (start stop : UInt32) : pad start stop = ShaderHeader.pad start.toNat stop.toNat := by
  unfold pad ShaderHeader.pad
  simp only [UInt32.lt_iff_toNat_lt]
  split_ifs with hlt
  · rw [UInt32.toNat_sub_of_le _ _ (UInt32.le_iff_toNat_le.mpr (Nat.le_of_lt hlt))]
  · rfl

end Words

/-- A uniform whose numbers are words. -/
structure Uniform.InWords (u : Uniform) : Prop where
  offset_lt : u.offset < wordLimit
  count_lt : u.count < wordLimit

/-- A block whose numbers are words. -/
structure Block.InWords (b : Block) : Prop where
  size_lt : b.size < wordLimit
  uniforms : ∀ u ∈ b.uniforms, u.InWords

namespace Words

variable {types : NameTable String}

lemma map_toNat_end? {u : Uniform} (h : u.InWords) :
    ((mul? (.ofNat u.type.size) (.ofNat u.count)).bind (add? (.ofNat u.offset))).map UInt32.toNat =
      u.end? := by
  have hsize : u.type.size < wordLimit := by cases u.type <;> decide
  have hoffset : (UInt32.ofNat u.offset).toNat = u.offset := UInt32.toNat_ofNat_of_lt' h.offset_lt
  have hproduct := map_toNat_mul? (.ofNat u.type.size) (.ofNat u.count)
  rw [UInt32.toNat_ofNat_of_lt' hsize, UInt32.toNat_ofNat_of_lt' h.count_lt] at hproduct
  rw [Uniform.end?, Uniform.hostSize?, ← hproduct, Option.map_bind, Option.bind_map]
  congr 1
  funext size
  rw [Function.comp_apply, Function.comp_apply, map_toNat_add?, hoffset]

/-- Every number on the way is the word for it. -/
lemma map_toNat_placeUniforms {cursor : UInt32} {us : List Uniform} (h : ∀ u ∈ us, u.InWords) :
    (placeUniforms types cursor us).map (Prod.map id UInt32.toNat) =
      ShaderHeader.placeUniforms types cursor.toNat us := by
  induction us generalizing cursor with
  | nil => rfl
  | cons u us ih =>
    obtain ⟨hu, hus⟩ := List.forall_mem_cons.mp h
    have hend := map_toNat_end? hu
    have hcount : (UInt32.ofNat u.count).toNat = u.count := UInt32.toNat_ofNat_of_lt' hu.count_lt
    have hoffset : (UInt32.ofNat u.offset).toNat = u.offset :=
      UInt32.toNat_ofNat_of_lt' hu.offset_lt
    simp only [placeUniforms, ShaderHeader.placeUniforms, ← UInt32.toNat_inj, UInt32.toNat_zero,
      UInt32.lt_iff_toNat_lt, hcount, hoffset]
    split_ifs
    · rfl
    · rfl
    · cases hnext : (mul? (.ofNat u.type.size) (.ofNat u.count)).bind (add? (.ofNat u.offset)) with
      | none =>
        rw [hnext] at hend
        rw [← hend]
        rfl
      | some next =>
        rw [hnext] at hend
        simp only [← hend, Option.map_some, ← ih hus, pad_eq, hoffset]
        cases placeUniforms types next us <;> rfl

/-- No number wraps unnoticed: a block is laid out in words as it is without a bound. -/
lemma hostStruct?_eq {b : Block} (h : b.InWords) :
    hostStruct? types b = HostStruct.ofBlock? types b := by
  have hsize : (UInt32.ofNat b.size).toNat = b.size := UInt32.toNat_ofNat_of_lt' h.size_lt
  have hround : ∀ v, (roundUp? v (.ofNat blockStride)).map UInt32.toNat =
      ShaderHeader.roundUp? v.toNat blockStride := fun v => map_toNat_roundUp? v (by decide)
  have hdeclared := hround (.ofNat b.size)
  have hplaced : (placeUniforms types 0 b.uniforms).map (Prod.map id UInt32.toNat) =
      ShaderHeader.placeUniforms types 0 b.uniforms := map_toNat_placeUniforms h.uniforms
  rw [hsize] at hdeclared
  -- rounding and placing are the only steps in which words are computed
  simp only [hostStruct?, HostStruct.ofBlock?, Block.roundedSize?, ← hplaced, ← hdeclared, hsize]
  cases roundUp? (.ofNat b.size) (.ofNat blockStride) with
  | none => rfl
  | some declared =>
    cases placeUniforms types 0 b.uniforms with
    | error fault => rfl
    | ok placed =>
      obtain ⟨members, last⟩ := placed
      simp only [Option.map_some, Except.map, Prod.map_apply, id_eq, bind, Except.bind,
        UInt32.lt_iff_toNat_lt, ← hround last, pad_eq]
      cases roundUp? last (.ofNat blockStride) <;> rfl

end Words

end ShaderHeader
