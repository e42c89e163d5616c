import ShaderHeader.Proofs.Locations
import ShaderHeader.Proofs.Reading.Token

/-!
# Names of constants

All constants of a header share one name space. The slots of images have distinct names, and so do
those of blocks, and neither can be taken for a location. The name of a location is put together
from two names, so one name may well be defined with two values: if a snippet has one attribute on
two slots, or if the name of one snippet continues that of another one and their attributes make up
for the difference.
-/

namespace ShaderHeader

open Check

/-- Some name is defined with two values. -/
def Clash (ks : List Constant) : Prop :=
  ∃ k ∈ ks, ∃ l ∈ ks, k.name = l.name ∧ k.value ≠ l.value

instance (ks : List Constant) : Decidable (Clash ks) :=
  inferInstanceAs (Decidable (∃ k ∈ ks, ∃ l ∈ ks, k.name = l.name ∧ k.value ≠ l.value))

/-! ### Names that are put together -/

section Lists

variable {α : Type} {as bs cs ds : List α} {x : α}

/-- Two lists that are divided at some element, but not at the same occurrence of it. -/
lemma append_cons_eq_append_cons_iff :
    as ++ x :: bs = cs ++ x :: ds ↔
      (as = cs ∧ bs = ds) ∨ (∃ ts, cs = as ++ x :: ts ∧ bs = ts ++ x :: ds) ∨
        ∃ ts, as = cs ++ x :: ts ∧ ds = ts ++ x :: bs := by
  constructor
  · intro h
    rcases List.append_eq_append_iff.mp h with ⟨ts, hcs, hbs⟩ | ⟨ts, has, hds⟩
    · cases ts with
      | nil => exact .inl ⟨by simpa using hcs.symm, by simpa using hbs⟩
      -- the separator of the longer text is found in the part behind the shorter one
      | cons y ts =>
        obtain ⟨rfl, htail⟩ := List.cons.inj hbs
        exact .inr (.inl ⟨ts, hcs, htail⟩)
    · cases ts with
      | nil => exact .inl ⟨by simpa using has, by simpa using hds.symm⟩
      | cons y ts =>
        obtain ⟨rfl, htail⟩ := List.cons.inj hds
        exact .inr (.inr ⟨ts, has, htail⟩)
  · rintro (⟨rfl, rfl⟩ | ⟨ts, rfl, rfl⟩ | ⟨ts, rfl, rfl⟩) <;> simp

end Lists

namespace Naming

variable {qualifier v w a b : String}

/-- Locations have the same name if their parts do, or if one snippet name is continued by the
attribute name that goes with the other one. -/
lemma location_eq_iff :
    location qualifier v a = location qualifier w b ↔
      (v = w ∧ a = b) ∨ (∃ t, w = v ++ "_" ++ t ∧ a = t ++ "_" ++ b) ∨
        ∃ t, v = w ++ "_" ++ t ∧ b = t ++ "_" ++ a := by
  have hlists : location qualifier v a = location qualifier w b ↔
      v.toList ++ '_' :: a.toList = w.toList ++ '_' :: b.toList := by
    simp [location, ← String.toList_inj]
  have hexists : ∀ {p : List Char → Prop}, (∃ ts, p ts) ↔ ∃ t : String, p t.toList := by
    intro p
    constructor
    · rintro ⟨ts, h⟩
      exact ⟨.ofList ts, by simpa using h⟩
    · rintro ⟨t, h⟩
      exact ⟨t.toList, h⟩
  rw [hlists, append_cons_eq_append_cons_iff, hexists, hexists]
  simp [← String.toList_inj]

lemma slot_eq_iff : slot qualifier a = slot qualifier b ↔ a = b := by
  simp only [slot, String.append_right_inj]

lemma location_ne_slot (r : String) : location qualifier v a ≠ slot qualifier r := by
  intro h
  have hlists := congrArg String.toList h
  simp [location, slot] at hlists

end Naming

/-! ### Attributes -/

namespace Compilation

/-- Attributes on two slots whose locations have the same name. -/
inductive LocationsClash (f : ShaderFile) (c : Compilation) : Prop
  | repeated {position slot slot' : Nat} {s : Snippet} {input : String}
      (snippet : f.snippets[position]? = some s)
      (first : c.ReadsAttribute position input slot)
      (second : c.ReadsAttribute position input slot') (ne : slot ≠ slot')
  | continued {position position' slot slot' : Nat} {s s' : Snippet} {rest input : String}
      (snippet : f.snippets[position]? = some s) (snippet' : f.snippets[position']? = some s')
      (name : s'.name = s.name ++ "_" ++ rest)
      (first : c.ReadsAttribute position (rest ++ "_" ++ input) slot)
      (second : c.ReadsAttribute position' input slot') (ne : slot ≠ slot')

end Compilation

/-- Locations clash exactly because of their attributes. -/
lemma clash_locationConstants_iff {f : ShaderFile} {c : Compilation}
    (hnames : (f.snippets.map Snippet.name).Nodup) :
    Clash (locationConstants f c) ↔ c.LocationsClash f := by
  constructor
  · rintro ⟨k, hk, l, hl, hname, hvalue⟩
    obtain ⟨i, s, a, slot, hs, ha, rfl⟩ := mem_locationConstants_iff.mp hk
    obtain ⟨j, s', b, slot', hs', hb, rfl⟩ := mem_locationConstants_iff.mp hl
    rcases Naming.location_eq_iff.mp hname with ⟨hsame, rfl⟩ | ⟨t, hrest, rfl⟩ | ⟨t, hrest, rfl⟩
    · -- snippets of one name are the same one, so their attributes are those of one snippet
      have hi : i < (f.snippets.map Snippet.name).length := by
        simpa using (List.getElem?_eq_some_iff.mp hs).1
      obtain rfl : i = j := (List.getElem?_inj hi hnames).mp (by simp [hs, hs', hsame])
      exact .repeated hs ha hb hvalue
    · exact .continued hs hs' hrest ha hb hvalue
    · exact .continued hs' hs hrest hb ha (Ne.symm hvalue)
  · rintro (⟨hs, ha, hb, hne⟩ | ⟨hs, hs', hrest, ha, hb, hne⟩)
    · exact ⟨_, mem_locationConstants_iff.mpr ⟨_, _, _, _, hs, ha, rfl⟩, _,
        mem_locationConstants_iff.mpr ⟨_, _, _, _, hs, hb, rfl⟩, rfl, hne⟩
    · exact ⟨_, mem_locationConstants_iff.mpr ⟨_, _, _, _, hs, ha, rfl⟩, _,
        mem_locationConstants_iff.mpr ⟨_, _, _, _, hs', hb, rfl⟩,
        Naming.location_eq_iff.mpr (.inr (.inl ⟨_, hrest, rfl⟩)), hne⟩

/-! ### Constants of a header -/

/-- The constants of a slot table have distinct names, since its holders have. -/
lemma SlotTable.Merges.nodup_constants {α : Type} [Resource α] {t : SlotTable α} {rs : List α}
    (h : t.Merges rs) (qualifier : String) :
    ((t.holders.map (slotConstant qualifier)).map Constant.name).Nodup := by
  have hnames : (t.holders.map (slotConstant qualifier)).map Constant.name =
      (t.holders.map Resource.name).map (Naming.slot qualifier) := by
    rw [List.map_map, List.map_map]
    rfl
  rw [hnames]
  exact h.nodup_names.map fun _ _ => Naming.slot_eq_iff.mp

/-- A slot of an image has the name of a block's slot only if the image and the block have one
name. -/
lemma exists_namesakes {f : ShaderFile} {c : Compilation} {b : Bindings}
    (h : Bindings.ofCompilation? f c = .ok b) {k l : Constant} (hk : k ∈ imageConstants f b)
    (hl : l ∈ b.blocks.holders.map (slotConstant f.qualifier)) (hname : k.name = l.name) :
    ∃ m ∈ c.images, ∃ u ∈ c.blocks, m.name = u.name ∧ k.value = m.slot ∧ l.value = u.slot := by
  obtain ⟨m, hm, rfl⟩ := List.mem_map.mp hk
  obtain ⟨u, hu, rfl⟩ := List.mem_map.mp hl
  exact ⟨m, ((Bindings.merges_images h).mem_holders_iff.mp hm).mem, u,
    ((Bindings.merges_blocks h).mem_holders_iff.mp hu).mem, Naming.slot_eq_iff.mp hname, rfl, rfl⟩

/-- The definitions of constants in a header have distinct names within one kind of resource, and
none of them is that of a location. An image and a block are told apart unless they have one name.
Locations clash exactly because of attributes in the first edition: one snippet has an attribute on
two slots, or the name of a snippet continues that of another one. -/
theorem Header.constants_distinct_but_for_locations {f : ShaderFile} {cs : Compilations}
    {o : Options} {h : Header} (hmake : make? f cs o = .ok h)
    (hnames : (f.snippets.map Snippet.name).Nodup) {s : Opening} (hs : s ∈ h.opening) :
    s.declarations.lines <:+: h.lines ∧
      s.declarations.lines.filter definesConstant = (s.declarations.locations ++
        s.declarations.images ++ s.declarations.blocks).map Constant.line ∧
      (s.declarations.images.map Constant.name).Nodup ∧
      (s.declarations.blocks.map Constant.name).Nodup ∧
      (∀ k ∈ s.declarations.locations, ∀ l ∈ s.declarations.images ++ s.declarations.blocks,
        k.name ≠ l.name) ∧
      ∃ first, IsFirstEdition f cs o first ∧
        (∀ k ∈ s.declarations.images, ∀ l ∈ s.declarations.blocks, k.name = l.name →
          ∃ m ∈ first.compilation.images, ∃ b ∈ first.compilation.blocks,
            m.name = b.name ∧ k.value = m.slot ∧ l.value = b.slot) ∧
        (Clash s.declarations.locations ↔ first.compilation.LocationsClash f) := by
  obtain ⟨first, hfirst, hdeclarations⟩ := exists_firstEdition hmake hs
  obtain ⟨d, hd, hcheck⟩ := hfirst
  obtain ⟨-, -, -, -, -, -, hbindings⟩ := Edition.check?_eq_ok_iff.mp hcheck
  obtain ⟨-, hlocations, himages, -⟩ := Declarations.ofEdition?_eq_ok_iff.mp hdeclarations
  have hblocks := Declarations.blocks_eq hdeclarations
  -- images and blocks have their constants named in one way
  have hslot : ∀ k ∈ s.declarations.images ++ s.declarations.blocks,
      ∃ r, k.name = Naming.slot f.qualifier r := by
    simp only [himages, hblocks, imageConstants, List.forall_mem_append, List.forall_mem_map]
    exact ⟨fun m _ => ⟨_, rfl⟩, fun b _ => ⟨_, rfl⟩⟩
  refine ⟨declarations_infix_lines hs, Declarations.filter_lines hdeclarations, ?_, ?_, ?_, first,
    ⟨d, hd, hcheck⟩, ?_, ?_⟩
  · -- the holders of a slot table have distinct names
    rw [himages]
    exact (Bindings.merges_images hbindings).nodup_constants _
  · -- so have those of the other one
    rw [hblocks]
    exact (Bindings.merges_blocks hbindings).nodup_constants _
  · -- a location does not start like a slot
    intro k hk l hl heq
    obtain ⟨_, v, input, _, -, -, rfl⟩ := mem_locationConstants_iff.mp (hlocations ▸ hk)
    obtain ⟨r, hname⟩ := hslot l hl
    exact Naming.location_ne_slot r (heq.trans hname)
  · -- an image and a block may share a name, and then also the constant
    rw [himages, hblocks]
    exact fun k hk l hl heq => exists_namesakes hbindings hk hl heq
  · -- all snippets have a name of their own, so only attributes and continued names are left
    rw [hlocations]
    exact clash_locationConstants_iff hnames

/-! ### Names that clash -/

namespace Sample

/-- A vertex stage that has an input of its name on this slot. -/
def reading (name : String) (slot : Nat) : Interface :=
  ({ stage := .vertex, entry := "main" } : Interface).addInput ⟨some slot, name, "TEXCOORD", 0⟩

/-- A file with two vertex stages, the name of one of which continues that of the other one. -/
def continuedFile : ShaderFile :=
  ({ path := "quad.glsl" } : ShaderFile)
    |>.addSnippet ⟨"a", .stage .vertex, 1⟩
    |>.addSnippet ⟨"a_b", .stage .vertex, 12⟩
    |>.addSnippet ⟨"fs", .stage .fragment, 23⟩
    |>.addProgram ⟨"p", "a", "fs", 30⟩
    |>.addProgram ⟨"q", "a_b", "fs", 31⟩

/-- The locations of both stages have the same name. -/
def continued : Compilations :=
  .ofList [(.glsl330, ⟨[⟨0, "", reading "b_c" 0⟩, ⟨1, "", reading "c" 1⟩,
    ⟨2, "", { stage := .fragment, entry := "main" }⟩], []⟩)]

/-- A stage has the same input on two slots. -/
def repeated : Compilations :=
  .ofList [(.glsl330, bare ((reading "position" 0).addInput ⟨some 1, "position", "TEXCOORD", 0⟩))]

/-- An image and a uniform block have the same name. -/
def namesakes : Compilations :=
  .ofList [(.glsl330,
    ⟨[⟨0, "", { stage := .vertex, entry := "main", blocks := [⟨"tex", 1, 16, []⟩] }⟩,
      ⟨1, "", { stage := .fragment, entry := "main", images := [⟨"tex", 0, .flat⟩] }⟩], []⟩)]

/-- Three files whose headers define a name with two values. -/
def clashing : List (ShaderFile × Compilations) :=
  [(continuedFile, continued), (file, repeated), (file, namesakes)]

/-- The constants of the two stages do clash, and those of their images do not. -/
theorem constants_distinct_but_for_locations_of_continued :
    ∃ h, Header.make? continuedFile continued (.ofCompilations continued "quad.h") = .ok h ∧
      ∃ s ∈ h.opening, (s.declarations.images.map Constant.name).Nodup ∧
        Clash s.declarations.locations := by
  have hheader : ∃ h, Header.make? continuedFile continued (.ofCompilations continued "quad.h") =
      .ok h ∧ h.opening.isSome = true := exists_of_map_toOption (by decide +kernel)
  obtain ⟨h, hmake, hopening⟩ := hheader
  obtain ⟨s, hs⟩ := Option.isSome_iff_exists.mp hopening
  obtain ⟨-, -, himages, -, -, first, ⟨d, hd, hcheck⟩, -, hclash⟩ :=
    Header.constants_distinct_but_for_locations hmake (by decide) hs
  obtain rfl : Dialect.glsl330 = d := Option.some.inj hd
  obtain ⟨-, hcompilation, -⟩ := Edition.check?_eq_ok_iff.mp hcheck
  have hsources : first.compilation.sources = [⟨0, "", reading "b_c" 0⟩, ⟨1, "", reading "c" 1⟩,
      ⟨2, "", { stage := .fragment, entry := "main" }⟩] := by
    rw [← Option.some.inj hcompilation]
  -- `a` reads `b_c` where `a_b` reads `c`
  have hfirst : first.compilation.ReadsAttribute 0 ("b" ++ "_" ++ "c") 0 :=
    ⟨_, hsources ▸ List.mem_cons_self, rfl, rfl, ⟨some 0, "b_c", "TEXCOORD", 0⟩, by decide, rfl,
      rfl⟩
  have hsecond : first.compilation.ReadsAttribute 1 "c" 1 :=
    ⟨⟨1, "", reading "c" 1⟩, by simp [hsources], rfl, rfl, ⟨some 1, "c", "TEXCOORD", 0⟩,
      by decide, rfl, rfl⟩
  have hname : "a_b" = "a" ++ "_" ++ "b" := by decide
  exact ⟨h, hmake, s, hs, himages,
    hclash.mpr (.continued rfl rfl hname hfirst hsecond (by decide))⟩

/-- Such a case is computed. -/
lemma exists_header_with_clash {f : ShaderFile} {cs : Compilations} (ks : List Constant)
    (hheader : (Header.make? f cs (.ofCompilations cs "quad.h")).toOption.map
      (fun h => h.opening.map fun s => s.declarations.constants) = some (some ks))
    (hclash : Clash ks) :
    ∃ h, Header.make? f cs (.ofCompilations cs "quad.h") = .ok h ∧
      ∃ s ∈ h.opening, Clash s.declarations.constants := by
  obtain ⟨h, hmake, hopening⟩ := exists_of_map_toOption hheader
  obtain ⟨s, hs, rfl⟩ := Option.map_eq_some_iff.mp hopening
  exact ⟨h, hmake, s, hs, hclash⟩

end Sample

/-- A name can be defined with two values although snippets have distinct names: for two snippets
whose names and attributes are put together in the same way, for an attribute on two slots, and for
an image and a block of the same name. -/
theorem Header.exists_constant_clash :
    (¬ ∀ (f : ShaderFile) (cs : Compilations) (o : Options) (h : Header),
      make? f cs o = .ok h → (f.snippets.map Snippet.name).Nodup →
        ∀ s ∈ h.opening, ¬ Clash s.declarations.constants) ∧
    ∀ x ∈ Sample.clashing, (x.1.snippets.map Snippet.name).Nodup ∧
        ∃ h, make? x.1 x.2 (.ofCompilations x.2 "quad.h") = .ok h ∧
          ∃ s ∈ h.opening, Clash s.declarations.constants := by
  have hsamples : ∀ x ∈ Sample.clashing, (x.1.snippets.map Snippet.name).Nodup ∧
        ∃ h, make? x.1 x.2 (.ofCompilations x.2 "quad.h") = .ok h ∧
          ∃ s ∈ h.opening, Clash s.declarations.constants := by
    simp only [Sample.clashing, List.forall_mem_cons, List.not_mem_nil, false_implies,
      implies_true, and_true]
    refine ⟨⟨by decide, ?_⟩, ⟨by decide, ?_⟩, by decide, ?_⟩
    · -- names of snippets that continue each other
      exact Sample.exists_header_with_clash [⟨"ATTR_a_b_c", 0⟩, ⟨"ATTR_a_b_c", 1⟩]
        (by decide +kernel) (by decide)
    · -- one attribute name on two slots
      exact Sample.exists_header_with_clash [⟨"ATTR_vs_position", 0⟩, ⟨"ATTR_vs_position", 1⟩]
        (by decide +kernel) (by decide)
    · -- an image and a block of one name
      exact Sample.exists_header_with_clash [⟨"SLOT_tex", 0⟩, ⟨"SLOT_tex", 1⟩]
        (by decide +kernel) (by decide)
  refine ⟨fun hall => ?_, hsamples⟩
  obtain ⟨hnames, h, hmake, s, hs, hclash⟩ := hsamples _ List.mem_cons_self
  exact hall _ _ _ h hmake hnames s hs hclash

end ShaderHeader
