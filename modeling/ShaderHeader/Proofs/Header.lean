import ShaderHeader.Header
import ShaderHeader.Proofs.Edition

/-!
# Headers

What a successful `Header.make?` says: there is an edition for every dialect, the opening is that of
the first edition, and every other edition agrees with the first one.
-/

namespace ShaderHeader

open Check

variable {f : ShaderFile} {cs : Compilations} {o : Options}

namespace Declarations

lemma hostStructs_eq_iff {types : NameTable String} {bs : List Block} {ss : List HostStruct} :
    hostStructs types bs = (ss, none) ↔
      List.Forall₂ (fun b s => HostStruct.ofBlock? types b = .ok s) bs ss := by
  induction bs generalizing ss with
  | nil => simp [hostStructs, eq_comm]
  | cons b bs ih =>
    rw [List.forall₂_cons_left_iff, hostStructs]
    cases hb : HostStruct.ofBlock? types b with
    | error fault => simp
    | ok s =>
      cases hbs : hostStructs types bs with
      | mk structs fault =>
        simp only [← ih, hbs, Prod.mk.injEq, Except.ok.injEq]
        constructor
        · rintro ⟨rfl, rfl⟩
          exact ⟨s, structs, rfl, ⟨rfl, rfl⟩, rfl⟩
        · rintro ⟨_, _, rfl, ⟨rfl, rfl⟩, rfl⟩
          exact ⟨rfl, rfl⟩

/-- The declarations of an edition have one struct for each block that holds a slot. -/
lemma ofEdition?_eq_ok_iff {e : Edition} {ds : Declarations} :
    ofEdition? f e = .ok ds ↔
      ds.qualifier = f.qualifier ∧ ds.locations = locationConstants f e.compilation ∧
        ds.images = imageConstants f e.bindings ∧
        List.Forall₂ (fun b s => HostStruct.ofBlock? f.types b = .ok s)
          e.bindings.blocks.holders ds.structs := by
  obtain ⟨qualifier, locations, images, structs⟩ := ds
  rw [ofEdition?, ← hostStructs_eq_iff]
  split
  · next h => simp [h]
  · next h =>
    simp only [h, Except.ok.injEq, Declarations.mk.injEq, Prod.mk.injEq, and_true]
    exact ⟨fun ⟨hq, hl, hi, hs⟩ => ⟨hq.symm, hl.symm, hi.symm, hs⟩,
      fun ⟨hq, hl, hi, hs⟩ => ⟨hq.symm, hl.symm, hi.symm, hs⟩⟩

end Declarations

lemma Opening.ofEdition?_eq_ok_iff {e : Edition} {s : Opening} :
    Opening.ofEdition? f o e = .ok s ↔
      s.guide = .ofEdition f o.version e ∧ Declarations.ofEdition? f e = .ok s.declarations ∧
        s.fileName = (Path.fileName? o.output).getD o.output := by
  obtain ⟨guide, declarations, fileName⟩ := s
  simp only [ofEdition?, bind_eq_ok_iff, pure_eq_ok_iff, Opening.mk.injEq]
  constructor
  · rintro ⟨ds, hds, rfl, rfl, rfl⟩
    exact ⟨rfl, hds, rfl⟩
  · rintro ⟨rfl, hds, rfl⟩
    exact ⟨declarations, hds, rfl, rfl, rfl⟩

namespace Header

/-- The editions after the first one are checked and agree with it, one by one. -/
lemma followers?_eq_ok_iff {first : Edition} {ds : List Dialect} {es : List Edition} :
    followers? f cs first ds = .ok es ↔
      List.Forall₂ (fun d e => Edition.check? f d cs = .ok e ∧
        first.checkAgreement f e = .ok ()) ds es := by
  induction ds generalizing es with
  | nil => simp [followers?, eq_comm]
  | cons d ds ih =>
    simp only [followers?, bind_eq_ok_iff, pure_eq_ok_iff, ih, List.forall₂_cons_left_iff]
    constructor
    · rintro ⟨e, he, _, hagree, es', hes, rfl⟩
      exact ⟨e, es', ⟨he, hagree⟩, hes, rfl⟩
    · rintro ⟨e, es', ⟨he, hagree⟩, hes, rfl⟩
      exact ⟨e, he, (), hagree, es', hes, rfl⟩

/-- Without dialects there are only accessors. -/
lemma make?_eq_ok_iff_of_nil (ho : o.dialects.toList = []) {h : Header} :
    make? f cs o = .ok h ↔ h = { accessors := accessorsFor f o } := by
  simp only [make?, ho, Except.ok.injEq, eq_comm]

/-- With dialects, the header is made from their editions. -/
lemma make?_eq_ok_iff_of_cons {d : Dialect} {ds : List Dialect}
    (ho : o.dialects.toList = d :: ds) {h : Header} :
    make? f cs o = .ok h ↔
      ∃ first opening others, Edition.check? f d cs = .ok first ∧
        Opening.ofEdition? f o first = .ok opening ∧
        List.Forall₂ (fun d e => Edition.check? f d cs = .ok e ∧
          first.checkAgreement f e = .ok ()) ds others ∧
        h = {
          opening := some opening
          sections := (first :: others).map (Section.ofEdition f · o.guarded)
          accessors := accessorsFor f o
          warnings := first.bindings.shadowed ++ opening.declarations.warnings } := by
  simp only [make?, ho, bind_eq_ok_iff, pure_eq_ok_iff, followers?_eq_ok_iff]
  constructor
  · rintro ⟨first, hfirst, opening, hopening, others, hothers, rfl⟩
    exact ⟨first, opening, others, hfirst, hopening, hothers, rfl⟩
  · rintro ⟨first, opening, others, hfirst, hopening, hothers, rfl⟩
    exact ⟨first, hfirst, opening, hopening, others, hothers, rfl⟩

/-- A header and the editions that it has been made from, one for each dialect. -/
structure MadeFrom (f : ShaderFile) (cs : Compilations) (o : Options) (h : Header)
    (es : List Edition) : Prop where
  checked : List.Forall₂ (fun d e => Edition.check? f d cs = .ok e) o.dialects.toList es
  agree : ∀ first ∈ es.head?, ∀ e ∈ es.tail, first.checkAgreement f e = .ok ()
  opening_eq : h.opening.isSome = es.head?.isSome
  opening : ∀ first ∈ es.head?, ∀ s ∈ h.opening, Opening.ofEdition? f o first = .ok s
  sections : h.sections = es.map (Section.ofEdition f · o.guarded)
  accessors : h.accessors = accessorsFor f o
  warnings : ∀ first ∈ es.head?, ∀ s ∈ h.opening,
    h.warnings = first.bindings.shadowed ++ s.declarations.warnings

lemma exists_madeFrom {h : Header} (hmake : make? f cs o = .ok h) :
    ∃ es, MadeFrom f cs o h es := by
  cases ho : o.dialects.toList with
  | nil =>
    obtain rfl := (make?_eq_ok_iff_of_nil ho).mp hmake
    exact ⟨[], ho ▸ .nil, by simp, rfl, by simp, rfl, rfl, by simp⟩
  | cons d ds =>
    obtain ⟨first, opening, others, hfirst, hopening, hothers, rfl⟩ :=
      (make?_eq_ok_iff_of_cons ho).mp hmake
    refine ⟨first :: others, ?_, ?_, rfl, ?_, rfl, rfl, ?_⟩
    · exact ho ▸ .cons hfirst (hothers.imp fun _ _ h => h.1)
    · rintro _ ⟨⟩ e he
      obtain ⟨_, -, -, hagree⟩ := exists_mem_of_forall₂ hothers he
      exact hagree
    · rintro _ ⟨⟩ _ ⟨⟩
      exact hopening
    · rintro _ ⟨⟩ _ ⟨⟩
      rfl

lemma MadeFrom.exists_check? {h : Header} {es : List Edition} (hmade : MadeFrom f cs o h es)
    {e : Edition} (he : e ∈ es) : ∃ d ∈ o.dialects.toList, Edition.check? f d cs = .ok e :=
  exists_mem_of_forall₂ hmade.checked he

/-- There is an edition for every dialect of the header. -/
lemma MadeFrom.exists_edition {h : Header} {es : List Edition} (hmade : MadeFrom f cs o h es)
    {d : Dialect} (hd : d ∈ o.dialects.toList) : ∃ e ∈ es, Edition.check? f d cs = .ok e :=
  exists_mem_of_forall₂ hmade.checked.flip hd

/-- An edition for the first dialect of a header. -/
def IsFirstEdition (f : ShaderFile) (cs : Compilations) (o : Options) (e : Edition) : Prop :=
  ∃ d ∈ o.dialects.toList.head?, Edition.check? f d cs = .ok e

/-- The opening and the warnings are those of the first edition. -/
lemma MadeFrom.exists_opening_of_cons {h : Header} {first : Edition} {es : List Edition}
    (hmade : MadeFrom f cs o h (first :: es)) :
    ∃ s, h.opening = some s ∧ Opening.ofEdition? f o first = .ok s ∧ IsFirstEdition f cs o first ∧
      h.warnings = first.bindings.shadowed ++ s.declarations.warnings := by
  obtain ⟨d, ds, hcheck, -, hds⟩ := List.forall₂_cons_right_iff.mp hmade.checked
  obtain ⟨s, hs⟩ := Option.isSome_iff_exists.mp hmade.opening_eq
  exact ⟨s, hs, hmade.opening first rfl s hs, ⟨d, by simp [hds], hcheck⟩,
    hmade.warnings first rfl s hs⟩

/-- A header with an opening has a first edition. -/
lemma MadeFrom.exists_ofEdition {h : Header} {es : List Edition} (hmade : MadeFrom f cs o h es)
    {s : Opening} (hs : s ∈ h.opening) :
    ∃ first ∈ es.head?, IsFirstEdition f cs o first ∧ Opening.ofEdition? f o first = .ok s ∧
      h.warnings = first.bindings.shadowed ++ s.declarations.warnings := by
  cases es with
  | nil => simpa [Option.mem_def.mp hs] using hmade.opening_eq
  | cons first es =>
    obtain ⟨s', hs', hopening, hfirst, hwarnings⟩ := hmade.exists_opening_of_cons
    obtain rfl : s = s' := Option.some.inj (hs.symm.trans hs')
    exact ⟨first, rfl, hfirst, hopening, hwarnings⟩

/-- A header with an edition has a first one, and an opening. -/
lemma MadeFrom.exists_first {h : Header} {es : List Edition} (hmade : MadeFrom f cs o h es)
    (hne : es ≠ []) :
    ∃ first ∈ es, IsFirstEdition f cs o first ∧
      ∃ s ∈ h.opening, Declarations.ofEdition? f first = .ok s.declarations ∧
        h.warnings = first.bindings.shadowed ++ s.declarations.warnings := by
  obtain ⟨first, es, rfl⟩ := List.exists_cons_of_ne_nil hne
  obtain ⟨s, hs, hopening, hfirst, hwarnings⟩ := hmade.exists_opening_of_cons
  exact ⟨first, List.mem_cons_self, hfirst, s, hs,
    (Opening.ofEdition?_eq_ok_iff.mp hopening).2.1, hwarnings⟩

end Header

/-! ### A small header -/

namespace Sample

/-- A vertex stage that leaves a location between its inputs free. -/
def vertex : Interface :=
  ({ stage := .vertex, entry := "main" } : Interface)
    |>.addInput ⟨some 2, "uv", "TEXCOORD", 1⟩
    |>.addInput ⟨some 0, "position", "TEXCOORD", 0⟩
    |>.addOutput ⟨some 0, "color", "TEXCOORD", 0⟩
    |>.addBlock ⟨"params", 0, 12, [⟨"offset", .float2, 0, 1⟩, ⟨"scale", .float, 8, 1⟩]⟩

/-- A fragment stage with some images. -/
def fragment (images : List Image) : Interface :=
  ({ stage := .fragment, entry := "main0", images } : Interface)
    |>.addInput ⟨some 0, "color", "TEXCOORD", 0⟩

def diffuse : Image := ⟨"diffuse", 0, .flat⟩

def sky : Image := ⟨"sky", 3, .cube⟩

/-- A file with one program. -/
def file : ShaderFile :=
  ({ path := "quad.glsl" } : ShaderFile)
    |>.addSnippet ⟨"vs", .stage .vertex, 1⟩
    |>.addSnippet ⟨"fs", .stage .fragment, 12⟩
    |>.addProgram ⟨"quad", "vs", "fs", 30⟩

def compilation (images : List Image) (blobs : List Blob) : Compilation :=
  ⟨[⟨0, "void main() \x7b\n\x7d\n", vertex⟩, ⟨1, "void main0() \x7b\x7d\n", fragment images⟩],
    blobs⟩

/-- Three compilations of the file, which list the images in different orders. -/
def compilations : Compilations :=
  .ofList [(.glsl330, compilation [diffuse, sky] []),
    (.hlsl5, compilation [sky, diffuse] [⟨1, [0xde, 0xad]⟩]),
    (.metalMacos, compilation [sky, diffuse] [])]

def options : Options :=
  .ofCompilations compilations "include/quad.h"

end Sample

end ShaderHeader
