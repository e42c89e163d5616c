import ShaderHeader.Proofs.Layout

/-!
# The tiling of host structs

The members of a host struct lie one behind the other, from its start to its end. The fields among
them are the uniforms of the block. Whatever else there is fills a gap: the one in front of a
uniform that does not start where the uniform before it ends, or the rest of the last stride.
-/

namespace ShaderHeader

/-! ### Tiles -/

/-- Members with their lengths that follow one another without a gap, from one offset to another. -/
def Tiles : Nat → List (Member × Nat) → Nat → Prop
  | start, [], stop                => start = stop
  | start, (m, length) :: ms, stop => m.offset = start ∧ Tiles (start + length) ms stop

lemma Tiles.append {start middle stop : Nat} {ms ns : List (Member × Nat)}
    (hms : Tiles start ms middle) (hns : Tiles middle ns stop) : Tiles start (ms ++ ns) stop := by
  induction ms generalizing start with
  | nil =>
    obtain rfl : start = middle := hms
    exact hns
  | cons m ms ih => exact ⟨hms.1, ih hms.2⟩

/-- Whether a member is the field of a uniform. -/
def Member.isField : Member → Bool
  | .padding _ _   => false
  | .field _ _ _ _ => true

/-- The last member is a field, if there is one. -/
def EndsInField (ms : List Member) : Prop :=
  ∀ m ∈ ms.getLast?, m.isField = true

/-- Members that end at an offset, either with a field or, where the last field ends earlier, with
one piece of padding from there on. -/
inductive PadsTo (start stop : Nat) : List Member → Prop
  | flush {ms : List Member} (eq : start = stop) (field : EndsInField ms) : PadsTo start stop ms
  | padded {ms : List Member} (lt : start < stop) (field : EndsInField ms) :
    PadsTo start stop (ms ++ [.padding start (stop - start)])

section Padding

variable {start stop : Nat}

lemma EndsInField.padsTo {ms : List Member} (h : EndsInField ms) (hle : start ≤ stop) :
    PadsTo start stop (ms ++ pad start stop) := by
  unfold pad
  split_ifs with hlt
  · exact .padded hlt h
  · rw [List.append_nil]
    exact .flush (Nat.le_antisymm hle (Nat.le_of_not_lt hlt)) h

/-- Padding with its length. -/
def gap (start stop : Nat) : List (Member × Nat) :=
  (pad start stop).map (·, stop - start)

@[simp] lemma map_fst_gap : (gap start stop).map Prod.fst = pad start stop := by
  simp [gap, Function.comp_def]

lemma eq_of_mem_gap {x : Member × Nat} (h : x ∈ gap start stop) :
    x = (.padding start (stop - start), stop - start) ∧ start < stop := by
  obtain ⟨m, hm, rfl⟩ := List.mem_map.mp h
  refine ⟨by rw [eq_padding_of_mem_pad hm], ?_⟩
  by_contra hle
  simp [pad, hle] at hm

/-- Padding is as long as it says, and is never empty. -/
lemma length_of_mem_gap {offset length n : Nat} (h : (.padding offset length, n) ∈ gap start stop) :
    n = length ∧ 0 < length := by
  obtain ⟨heq, hlt⟩ := eq_of_mem_gap h
  obtain ⟨⟨-, rfl⟩, rfl⟩ := Prod.mk.inj heq |>.imp_left Member.padding.inj
  exact ⟨rfl, Nat.sub_pos_of_lt hlt⟩

lemma filter_isField_gap : (gap start stop).filter (fun x => x.1.isField) = [] := by
  apply List.filter_eq_nil_iff.mpr
  intro x hx
  rw [(eq_of_mem_gap hx).1]
  exact Bool.false_ne_true

lemma tiles_gap (hle : start ≤ stop) : Tiles start (gap start stop) stop := by
  unfold gap pad
  split_ifs with hlt
  · exact ⟨rfl, Nat.add_sub_of_le hle⟩
  · exact Nat.le_antisymm hle (Nat.le_of_not_lt hlt)

end Padding

/-! ### Uniforms in a row -/

section Uniforms

variable {types : NameTable String} {cursor : Nat} {us vs : List Uniform}

lemma membersFrom_append (types : NameTable String) (cursor : Nat) (us vs : List Uniform) :
    membersFrom types cursor (us ++ vs) =
      membersFrom types cursor us ++ membersFrom types (stopFrom cursor us) vs := by
  induction us generalizing cursor with
  | nil => rfl
  | cons u us ih => simp [membersFrom, ih]

lemma followFrom_append : FollowFrom cursor (us ++ vs) ↔
    FollowFrom cursor us ∧ FollowFrom (stopFrom cursor us) vs := by
  induction us generalizing cursor with
  | nil => simp [FollowFrom]
  | cons u us ih => simp [FollowFrom, ih, and_assoc]

/-- The last member of some uniforms is the field of the last uniform. -/
lemma endsInField_membersFrom (types : NameTable String) (cursor : Nat) (us : List Uniform) :
    EndsInField (membersFrom types cursor us) := by
  rcases List.eq_nil_or_concat us with rfl | ⟨us, u, rfl⟩
  · simp [EndsInField, membersFrom]
  · simp [EndsInField, membersFrom_append, membersFrom, Uniform.field, Member.isField]

/-- The members of some uniforms with their lengths. A field is as long as its uniform. -/
def extentsFrom (types : NameTable String) : Nat → List Uniform → List (Member × Nat)
  | _, []           => []
  | cursor, u :: us =>
    gap cursor u.offset ++ (u.field types, u.hostSize) :: extentsFrom types u.stop us

@[simp] lemma map_fst_extentsFrom : (extentsFrom types cursor us).map Prod.fst =
    membersFrom types cursor us := by
  induction us generalizing cursor with
  | nil => rfl
  | cons u us ih => simp [extentsFrom, membersFrom, ih]

/-- The fields are the uniforms, in their order. -/
lemma filter_isField_extentsFrom :
    (extentsFrom types cursor us).filter (fun x => x.1.isField) =
      us.map fun u => (u.field types, u.hostSize) := by
  induction us generalizing cursor with
  | nil => rfl
  | cons u us ih =>
    rw [extentsFrom, List.filter_append, filter_isField_gap, List.nil_append,
      List.filter_cons_of_pos rfl, ih, List.map_cons]

lemma filter_isField_membersFrom :
    (membersFrom types cursor us).filter Member.isField = us.map (Uniform.field types) := by
  have hfields : (((extentsFrom types cursor us).filter fun x => x.1.isField).map Prod.fst) =
      us.map (Uniform.field types) := by
    rw [filter_isField_extentsFrom, List.map_map]
    rfl
  rw [← map_fst_extentsFrom, List.filter_map]
  exact hfields

lemma length_of_mem_extentsFrom {start length n : Nat}
    (h : (.padding start length, n) ∈ extentsFrom types cursor us) : n = length ∧ 0 < length := by
  induction us generalizing cursor with
  | nil => cases h
  | cons u us ih =>
    rcases List.mem_append.mp h with hgap | hrest
    · exact length_of_mem_gap hgap
    · rcases List.mem_cons.mp hrest with hfield | hrest
      · cases hfield
      · exact ih hrest

lemma tiles_extentsFrom (h : FollowFrom cursor us) :
    Tiles cursor (extentsFrom types cursor us) (stopFrom cursor us) := by
  induction us generalizing cursor with
  | nil => rfl
  | cons u us ih =>
    obtain ⟨-, hle, -, hfollow⟩ := h
    rw [stopFrom_cons]
    exact (tiles_gap hle).append ⟨rfl, ih hfollow⟩

end Uniforms

/-! ### The struct of a block -/

namespace HostStruct

variable {types : NameTable String} {b : Block} {s : HostStruct}

/-- The size is the least multiple of the stride at which all uniforms have ended. -/
lemma isLeast_size (hs : ofBlock? types b = .ok s) :
    IsLeast {n | blockStride ∣ n ∧ b.stop ≤ n} s.size := by
  obtain ⟨-, hsize, -⟩ := size_of_ofBlock? hs
  rw [hsize]
  exact isLeast_strideAbove b.stop

/-- The members tile the struct if a field is taken to be as long as its uniform. -/
lemma exists_extents (hs : ofBlock? types b = .ok s) :
    ∃ extents : List (Member × Nat), extents.map Prod.fst = s.members ∧ Tiles 0 extents s.size ∧
      (extents.filter fun x => x.1.isField) =
        b.uniforms.map (fun u => (u.field types, u.hostSize)) ∧
      ∀ start length n, (.padding start length, n) ∈ extents → n = length ∧ 0 < length := by
  obtain ⟨-, hfollow, -⟩ := ofBlock?_eq_ok_iff.mp hs
  obtain ⟨⟨-, hle⟩, -⟩ := isLeast_size hs
  refine ⟨extentsFrom types 0 b.uniforms ++ gap b.stop s.size, ?_,
    (tiles_extentsFrom hfollow).append (tiles_gap hle), ?_, ?_⟩
  · simp [members_eq hs]
  · rw [List.filter_append, filter_isField_extentsFrom, filter_isField_gap, List.append_nil]
  · intro start length n h
    rcases List.mem_append.mp h with hfrom | hgap
    · exact length_of_mem_extentsFrom hfrom
    · exact length_of_mem_gap hgap

/-- In front of the field of a uniform there is padding from where the uniform before it ends. -/
lemma exists_members_before (hs : ofBlock? types b = .ok s) {before after : List Uniform}
    {u : Uniform} (h : b.uniforms = before ++ u :: after) :
    ∃ ms ns, s.members = ms ++ u.field types :: ns ∧
      ms.filter Member.isField = before.map (Uniform.field types) ∧
      PadsTo (stopFrom 0 before) u.offset ms := by
  obtain ⟨-, hfollow, -⟩ := ofBlock?_eq_ok_iff.mp hs
  rw [h, followFrom_append] at hfollow
  obtain ⟨-, -, hle, -⟩ := hfollow
  refine ⟨membersFrom types 0 before ++ pad (stopFrom 0 before) u.offset,
    membersFrom types u.stop after ++ pad b.stop s.size, ?_, ?_,
    (endsInField_membersFrom types 0 before).padsTo hle⟩
  · simp [members_eq hs, h, membersFrom_append, membersFrom]
  · rw [List.filter_append, filter_isField_membersFrom, ← map_fst_gap, List.filter_map]
    simp [filter_isField_gap, Function.comp_def]

/-- The members of a host struct tile it from its start to its size, the fields being the uniforms
in their order. In front of a uniform there is padding exactly if it does not start where the one
before it ends, and after the last one there is padding exactly if it does not end with a stride.
The size is where that stride ends, and the declared size of the block has room for it. -/
theorem members_tile_block (hs : ofBlock? types b = .ok s) :
    (∃ extents : List (Member × Nat), extents.map Prod.fst = s.members ∧ Tiles 0 extents s.size ∧
      (extents.filter fun x => x.1.isField) =
        b.uniforms.map (fun u => (u.field types, u.hostSize)) ∧
      ∀ start length n, (.padding start length, n) ∈ extents → n = length ∧ 0 < length) ∧
    (∀ before u after, b.uniforms = before ++ u :: after →
      ∃ ms ns, s.members = ms ++ u.field types :: ns ∧
        ms.filter Member.isField = before.map (Uniform.field types) ∧
        PadsTo (stopFrom 0 before) u.offset ms) ∧
    PadsTo b.stop s.size s.members ∧ (b.stop = s.size ↔ blockStride ∣ b.stop) ∧
    IsLeast {n | blockStride ∣ n ∧ b.stop ≤ n} s.size ∧
    ∃ declared, b.roundedSize? = some declared ∧ s.size ≤ declared := by
  have hleast := isLeast_size hs
  obtain ⟨hrounded, -, hfit, -⟩ := size_of_ofBlock? hs
  refine ⟨exists_extents hs, fun _ _ _ h => exists_members_before hs h, ?_, ?_, hleast,
    strideAbove b.size, hrounded, hfit⟩
  · rw [members_eq hs]
    exact (endsInField_membersFrom types 0 b.uniforms).padsTo hleast.1.2
  · constructor
    · intro heq
      exact heq ▸ hleast.1.1
    · intro hdvd
      exact Nat.le_antisymm hleast.1.2 (hleast.2 ⟨hdvd, Nat.le_refl _⟩)

end HostStruct

namespace Sample

/-- A block with an unsupported uniform, a gap in front of an array, and an end within a stride. -/
def ragged : Block :=
  ⟨"ragged", 1, 60, [⟨"scale", .float, 0, 1⟩, ⟨"mode", .unsupported, 4, 3⟩,
    ⟨"axes", .float3, 16, 2⟩]⟩

theorem members_tile_block_of_ragged :
    ∃ s, HostStruct.ofBlock? .empty ragged = .ok s ∧ s.size = 48 ∧
      (∃ extents : List (Member × Nat), extents.map Prod.fst = s.members ∧ Tiles 0 extents 48 ∧
        (extents.filter fun x => x.1.isField).map Prod.snd = [4, 0, 24]) ∧
      (∃ ms ns, s.members = ms ++ .field "axes" 16 (.floats 3) 2 :: ns ∧ PadsTo 4 16 ms) ∧
      PadsTo 40 48 s.members := by
  obtain ⟨s, hs⟩ : ∃ s, HostStruct.ofBlock? .empty ragged = .ok s := ⟨_, rfl⟩
  obtain ⟨⟨extents, hmembers, htiles, hfields, -⟩, hbefore, hpads, -, -, -⟩ :=
    HostStruct.members_tile_block hs
  obtain rfl := Except.ok.inj hs
  obtain ⟨ms, ns, haxes, -, hms⟩ := hbefore [⟨"scale", .float, 0, 1⟩, ⟨"mode", .unsupported, 4, 3⟩]
    ⟨"axes", .float3, 16, 2⟩ [] rfl
  refine ⟨_, rfl, rfl, ⟨extents, hmembers, htiles, ?_⟩, ⟨ms, ns, haxes, hms⟩, hpads⟩
  rw [hfields]
  rfl

end Sample

end ShaderHeader
