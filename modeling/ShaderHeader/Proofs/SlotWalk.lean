import ShaderHeader.Proofs.SlotConflict

/-!
# The walk over all resources

The resources of a compilation claim their slots one after the other, source by source and images
before blocks. This order decides two things: in which order the holders are declared, and which
clash of names is reported if there are several. What a resource meets depends on the resources of
its own kind that are in front of it, and on nothing else.
-/

namespace ShaderHeader

open Check

/-! ### First resources in order -/

section Firsts

variable {α : Type} [Resource α] {rs : List α} {q r : α} {t t' : SlotTable α}

/-- The first resource on each slot, in order of first appearance. -/
def firsts : List α → List α
  | []      => []
  | r :: rs => r :: (firsts rs).filter fun q => Resource.slot q ≠ Resource.slot r

lemma firsts_concat (rs : List α) (r : α) :
    firsts (rs ++ [r]) =
      if firstOn? rs (Resource.slot r) = none then firsts rs ++ [r] else firsts rs := by
  induction rs with
  | nil => rfl
  | cons q rs ih =>
    by_cases hslot : Resource.slot q = Resource.slot r
    · -- the head is on the slot, so the last one is taken out again by the filter
      have htaken : firstOn? (q :: rs) (Resource.slot r) = some q := by simp [firstOn?, hslot]
      rw [htaken, if_neg (Option.some_ne_none q), List.cons_append, firsts, firsts, ih]
      split_ifs
      · simp [hslot]
      · rfl
    · have hrest : firstOn? (q :: rs) (Resource.slot r) = firstOn? rs (Resource.slot r) := by
        simp [firstOn?, hslot]
      rw [hrest, List.cons_append, firsts, firsts, ih]
      split_ifs
      · simp [Ne.symm hslot]
      · rfl

namespace SlotTable

/-- A table after some resources have claimed their slots, with its holders in order. -/
structure MergesInOrder (t : SlotTable α) (rs : List α) : Prop extends t.Merges rs where
  holders_eq : t.holders = firsts rs

lemma mergesInOrder_nil : ({} : SlotTable α).MergesInOrder [] :=
  ⟨merges_nil, rfl⟩

lemma MergesInOrder.claim (h : t.MergesInOrder rs) (hclaim : t.claim r = .ok t') :
    t'.MergesInOrder (rs ++ [r]) := by
  refine ⟨h.toMerges.claim hclaim, ?_⟩
  rw [firsts_concat, ← h.holder?_eq, ← h.holders_eq]
  rcases claim_eq_ok_iff.mp hclaim with ⟨first, hfirst, rfl⟩ | ⟨hslot, -, rfl⟩
  · rw [hfirst, if_neg (Option.some_ne_none first)]
  · rw [hslot, if_pos rfl]

end SlotTable

end Firsts

/-! ### One walk for both kinds -/

/-- A resource of either kind. -/
inductive Claimant
  | image (m : Image)
  | block (b : Block)

namespace Claimant

def image? : Claimant → Option Image
  | image m => some m
  | block _ => none

def block? : Claimant → Option Block
  | image _ => none
  | block b => some b

end Claimant

/-- The resources of a stage, images first. -/
def Interface.claimants (i : Interface) : List Claimant :=
  i.images.map .image ++ i.blocks.map .block

/-- The resources of a compilation in the order in which they claim their slots, each with its
source. -/
def Compilation.walk (c : Compilation) : List (Source × Claimant) :=
  c.sources.flatMap fun s => s.interface.claimants.map (s, ·)

namespace Bindings

variable {f : ShaderFile} {c : Compilation} {b b' : Bindings}

/-- Lets a resource of either kind claim its slot. -/
def claim (b : Bindings) : Claimant → Except Fault Bindings
  | .image m => (b.images.claim m).map fun images => { b with images }
  | .block r => (b.blocks.claim r).map fun blocks => { b with blocks }

/-- One step of the walk. -/
def claimIn (f : ShaderFile) (b : Bindings) (x : Source × Claimant) : Except Failure Bindings :=
  (b.claim x.2).mapError (f.failure (f.snippetLine x.1.snippet))

lemma addInterface_eq (b : Bindings) (i : Interface) :
    b.addInterface i = i.claimants.foldlM claim b := by
  have himages : (i.images.map .image).foldlM claim b =
      (i.images.foldlM SlotTable.claim b.images).map fun images => { b with images } :=
    foldlM_map_eq_map Claimant.image (fun images => { b with images }) (fun _ _ => rfl) _ _
  rw [addInterface, Interface.claimants, List.foldlM_append, himages]
  cases i.images.foldlM SlotTable.claim b.images with
  | error fault => rfl
  | ok images =>
    have hblocks : (i.blocks.map .block).foldlM claim ⟨images, b.blocks⟩ =
        (i.blocks.foldlM SlotTable.claim b.blocks).map (Bindings.mk images) :=
      foldlM_map_eq_map Claimant.block (Bindings.mk images) (fun _ _ => rfl) _ _
    exact hblocks.symm

lemma addSource_eq (b : Bindings) (s : Source) :
    addSource f b s = (s.interface.claimants.map (s, ·)).foldlM (claimIn f) b := by
  rw [addSource, addInterface_eq, List.foldlM_map]
  exact (foldlM_mapError _ _ _ _).symm

/-- The resources of a compilation claim their slots in the order of the walk. -/
lemma ofCompilation?_eq : ofCompilation? f c = c.walk.foldlM (claimIn f) {} := by
  -- by induction on the sources, with any bindings to start from
  suffices h : ∀ (ss : List Source) (b : Bindings), ss.foldlM (addSource f) b =
      (ss.flatMap fun s => s.interface.claimants.map (s, ·)).foldlM (claimIn f) b from
    h c.sources {}
  intro ss
  induction ss with
  | nil => exact fun _ => rfl
  | cons s ss ih =>
    intro b
    simp only [List.foldlM_cons, List.flatMap_cons, List.foldlM_append, addSource_eq, ih]

/-! ### What a walk leads to -/

/-- Bindings after some resources of both kinds have claimed their slots. -/
structure Merges (b : Bindings) (rs : List Claimant) : Prop where
  images : b.images.MergesInOrder (rs.filterMap Claimant.image?)
  blocks : b.blocks.MergesInOrder (rs.filterMap Claimant.block?)

lemma merges_nil : Merges {} [] :=
  ⟨SlotTable.mergesInOrder_nil, SlotTable.mergesInOrder_nil⟩

/-- A resource leaves the other kind alone. -/
lemma Merges.claim {rs : List Claimant} {r : Claimant} (h : b.Merges rs)
    (hclaim : b.claim r = .ok b') : b'.Merges (rs ++ [r]) := by
  cases r with
  | image m =>
    obtain ⟨images, himages, rfl⟩ := map_eq_ok_iff.mp hclaim
    refine ⟨?_, ?_⟩
    · rw [List.filterMap_append]
      exact h.images.claim himages
    · rw [List.filterMap_append]
      exact (List.append_nil _).symm ▸ h.blocks
  | block r =>
    obtain ⟨blocks, hblocks, rfl⟩ := map_eq_ok_iff.mp hclaim
    refine ⟨?_, ?_⟩
    · rw [List.filterMap_append]
      exact (List.append_nil _).symm ▸ h.images
    · rw [List.filterMap_append]
      exact h.blocks.claim hblocks

/-- A resource of either kind clashes with one of its own kind in front of it. -/
inductive Clash (before : List Claimant) : Claimant → Fault → Prop
  | image {m q : Image} (h : SlotTable.ClashesWith (before.filterMap Claimant.image?) m q) :
    Clash before (.image m) (.slotConflict .image m.name q.slot m.slot)
  | block {r q : Block} (h : SlotTable.ClashesWith (before.filterMap Claimant.block?) r q) :
    Clash before (.block r) (.slotConflict .block r.name q.slot r.slot)

lemma Merges.claim_eq_error_iff {rs : List Claimant} (h : b.Merges rs) {r : Claimant}
    {fault : Fault} : b.claim r = .error fault ↔ Clash rs r fault := by
  cases r with
  | image m =>
    rw [Bindings.claim, map_eq_error_iff, h.images.claim_eq_error_iff]
    constructor
    · rintro ⟨q, hq, rfl⟩
      exact .image hq
    · intro hclash
      cases hclash with
      | image hq => exact ⟨_, hq, rfl⟩
  | block r =>
    rw [Bindings.claim, map_eq_error_iff, h.blocks.claim_eq_error_iff]
    constructor
    · rintro ⟨q, hq, rfl⟩
      exact .block hq
    · intro hclash
      cases hclash with
      | block hq => exact ⟨_, hq, rfl⟩

/-- The resources of a part of a walk. -/
def resources (xs : List (Source × Claimant)) : List Claimant :=
  xs.map Prod.snd

/-- Some resource of a walk clashes with one in front of it. -/
def HasClash (xs : List (Source × Claimant)) : Prop :=
  ∃ before x after fault, xs = before ++ x :: after ∧ Clash (resources before) x.2 fault

lemma merges_of_foldlM_claimIn {xs : List (Source × Claimant)}
    (h : xs.foldlM (claimIn f) {} = .ok b) : b.Merges (resources xs) := by
  refine keeps_of_foldlM_eq_ok (P := fun ys b => Merges b (resources ys)) ?_
    (show Merges {} (resources []) from merges_nil) h
  intro before x b b' hb hx
  rw [resources, List.map_append]
  exact hb.claim (mapError_eq_ok_iff.mp hx)

/-- A step of the walk fails because of a clash. -/
lemma claimIn_eq_error_iff {before : List (Source × Claimant)}
    (h : before.foldlM (claimIn f) {} = .ok b) {x : Source × Claimant} {e : Failure} :
    claimIn f b x = .error e ↔ ∃ fault, Clash (resources before) x.2 fault ∧
      e = f.failure (f.snippetLine x.1.snippet) fault := by
  rw [claimIn, mapError_eq_error_iff]
  simp only [(merges_of_foldlM_claimIn h).claim_eq_error_iff, eq_comm (a := e)]

lemma exists_foldlM_claimIn_iff {xs : List (Source × Claimant)} :
    (∃ b, xs.foldlM (claimIn f) {} = .ok b) ↔ ¬ HasClash xs := by
  constructor
  · -- what is in front of the clash has gone well, so the clash would have been a failure
    rintro ⟨b, hb⟩ ⟨before, x, after, fault, rfl, hclash⟩
    rw [List.foldlM_append] at hb
    obtain ⟨b₁, hbefore, hrest⟩ := bind_eq_ok_iff.mp hb
    have hx := (claimIn_eq_error_iff hbefore).mpr ⟨fault, hclash, rfl⟩
    rw [List.foldlM_cons, hx] at hrest
    cases hrest
  · intro hnone
    cases hxs : xs.foldlM (claimIn f) {} with
    | ok b => exact ⟨b, rfl⟩
    -- a walk that fails has a first claim that fails, and this is a clash
    | error e =>
      obtain ⟨before, x, after, b, heq, hbefore, hx⟩ := foldlM_eq_error_iff.mp hxs
      obtain ⟨fault, hclash, -⟩ := (claimIn_eq_error_iff hbefore).mp hx
      exact absurd ⟨before, x, after, fault, heq, hclash⟩ hnone

/-- The first clash of a walk is the one that is reported. -/
lemma foldlM_claimIn_eq_error_iff {xs : List (Source × Claimant)} {e : Failure} :
    xs.foldlM (claimIn f) {} = .error e ↔
      ∃ before x after fault, xs = before ++ x :: after ∧ ¬ HasClash before ∧
        Clash (resources before) x.2 fault ∧
        e = f.failure (f.snippetLine x.1.snippet) fault := by
  rw [foldlM_eq_error_iff]
  constructor
  · rintro ⟨before, x, after, b, heq, hbefore, hx⟩
    obtain ⟨fault, hclash, he⟩ := (claimIn_eq_error_iff hbefore).mp hx
    exact ⟨before, x, after, fault, heq, exists_foldlM_claimIn_iff.mp ⟨b, hbefore⟩, hclash, he⟩
  · rintro ⟨before, x, after, fault, heq, hnone, hclash, he⟩
    obtain ⟨b, hbefore⟩ := exists_foldlM_claimIn_iff (f := f) |>.mpr hnone
    exact ⟨before, x, after, b, heq, hbefore,
      (claimIn_eq_error_iff hbefore).mpr ⟨fault, hclash, he⟩⟩

/-- The walk goes through all images and blocks in their orders. -/
lemma filterMap_resources_walk (c : Compilation) :
    (resources c.walk).filterMap Claimant.image? = c.images ∧
      (resources c.walk).filterMap Claimant.block? = c.blocks := by
  simp only [resources, Compilation.walk, List.map_flatMap, List.filterMap_flatMap,
    Interface.claimants, List.map_append, List.filterMap_append, List.map_map, List.filterMap_map]
  constructor
  · simp [Function.comp_def, Claimant.image?, Compilation.images]
  · simp [Function.comp_def, Claimant.block?, Compilation.blocks]

/-- The resources of a compilation are merged by slot unless one that comes first on its slot has
the name of another one that came first on its own. Then the first such clash of the walk is
reported with both slots, at the line of the source in which it is found. Otherwise the holders of
the slots are the first resources on them, in order of first appearance and with distinct slots and
names, and there is a warning for every resource whose name differs from that of the first one on
its slot. -/
theorem merges_unless_clash (f : ShaderFile) (c : Compilation) :
    (∀ e, ofCompilation? f c = .error e ↔
      ∃ before source r after fault, c.walk = before ++ (source, r) :: after ∧
        ¬ HasClash before ∧ Clash (resources before) r fault ∧
        e = f.failure (f.snippetLine source.snippet) fault) ∧
    ((∃ e, ofCompilation? f c = .error e) ↔ HasClash c.walk) ∧
    ∀ b, ofCompilation? f c = .ok b →
      (b.images.holders = firsts c.images ∧ (b.images.holders.map Image.slot).Nodup ∧
        (b.images.holders.map Image.name).Nodup) ∧
      (b.blocks.holders = firsts c.blocks ∧ (b.blocks.holders.map Block.slot).Nodup ∧
        (b.blocks.holders.map Block.name).Nodup) ∧
      b.shadowed = c.images.flatMap (SlotTable.losses c.images) ++
        c.blocks.flatMap (SlotTable.losses c.blocks) := by
  rw [ofCompilation?_eq]
  refine ⟨fun e => ?_, ?_, fun b hb => ?_⟩
  · rw [foldlM_claimIn_eq_error_iff]
    constructor
    · rintro ⟨before, ⟨source, r⟩, after, fault, h⟩
      exact ⟨before, source, r, after, fault, h⟩
    · rintro ⟨before, source, r, after, fault, h⟩
      exact ⟨before, (source, r), after, fault, h⟩
  · rw [← not_iff_not, ← exists_foldlM_claimIn_iff (f := f)]
    cases c.walk.foldlM (claimIn f) {} <;> simp
  · -- the walk takes images and blocks in turns, each table sees its own
    obtain ⟨himages, hblocks⟩ := merges_of_foldlM_claimIn hb
    obtain ⟨hallImages, hallBlocks⟩ := filterMap_resources_walk c
    rw [hallImages] at himages
    rw [hallBlocks] at hblocks
    refine ⟨⟨himages.holders_eq, himages.nodup_slots, himages.nodup_names⟩,
      ⟨hblocks.holders_eq, hblocks.nodup_slots, hblocks.nodup_names⟩, ?_⟩
    rw [shadowed, himages.shadowed_eq, hblocks.shadowed_eq]

end Bindings

namespace Sample

/-- A source with some resources. -/
def sourceWith (snippet : Nat) (images : List Image) (blocks : List Block) : Source :=
  ⟨snippet, "", { stage := .vertex, entry := "main", images, blocks }⟩

/-- Two sources, the second one of which has an image and a block that clash. -/
def colliding : Compilation :=
  ⟨[sourceWith 0 [⟨"tex", 1, .flat⟩, ⟨"mask", 2, .cube⟩] [⟨"params", 0, 16, []⟩],
    sourceWith 7 [⟨"noise", 0, .flat⟩, ⟨"tex", 3, .flat⟩] [⟨"params", 3, 16, []⟩]], []⟩

/-- Two sources, the second one of which has an image and a block on slots that are taken. -/
def merging : Compilation :=
  ⟨[sourceWith 0 [⟨"tex", 1, .flat⟩, ⟨"mask", 2, .cube⟩] [⟨"params", 0, 16, []⟩],
    sourceWith 7 [⟨"mask", 1, .flat⟩, ⟨"noise", 0, .flat⟩] [⟨"lights", 0, 16, []⟩]], []⟩

/-- The image is reported, as it is in front of the block, and at line 0, as there is no snippet for
its source. -/
theorem merges_unless_clash_of_colliding :
    (Bindings.ofCompilation? { path := "quad.glsl" } colliding =
        .error ⟨"quad.glsl", 0, .slotConflict .image "tex" 1 3⟩ ∧
      Bindings.HasClash colliding.walk ∧
      ∃ before source r after, colliding.walk = before ++ (source, r) :: after ∧
        ¬ Bindings.HasClash before ∧
        Bindings.Clash (Bindings.resources before) r (.slotConflict .image "tex" 1 3)) ∧
    ∃ b, Bindings.ofCompilation? { path := "quad.glsl" } merging = .ok b ∧
      b.images.holders = [⟨"tex", 1, .flat⟩, ⟨"mask", 2, .cube⟩, ⟨"noise", 0, .flat⟩] ∧
      b.shadowed = [.shadowed .image "mask" 1 "tex", .shadowed .block "lights" 0 "params"] := by
  constructor
  · -- `tex` is on a second slot
    obtain ⟨hfirst, hsome, -⟩ := Bindings.merges_unless_clash { path := "quad.glsl" } colliding
    have hfails : Bindings.ofCompilation? { path := "quad.glsl" } colliding =
        .error ⟨"quad.glsl", 0, .slotConflict .image "tex" 1 3⟩ := rfl
    obtain ⟨before, source, r, after, fault, hwalk, hnone, hclash, heq⟩ := (hfirst _).mp hfails
    obtain rfl := (Failure.mk.inj heq).2.2
    exact ⟨hfails, hsome.mp ⟨_, hfails⟩, before, source, r, after, hwalk, hnone, hclash⟩
  · -- names differ on some slots, which is no failure
    obtain ⟨-, -, hok⟩ := Bindings.merges_unless_clash { path := "quad.glsl" } merging
    obtain ⟨b, hb⟩ : ∃ b, Bindings.ofCompilation? { path := "quad.glsl" } merging = .ok b :=
      ⟨_, rfl⟩
    obtain ⟨⟨himages, -⟩, -, hshadowed⟩ := hok b hb
    refine ⟨b, hb, himages, ?_⟩
    rw [hshadowed]
    rfl

end Sample

end ShaderHeader
