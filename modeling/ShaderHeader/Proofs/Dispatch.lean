import ShaderHeader.Proofs.AccessorText
import ShaderHeader.Proofs.Agreement
import ShaderHeader.Proofs.Constants
import ShaderHeader.Proofs.Keys
import ShaderHeader.Proofs.OpeningText

/-!
# Dispatch

An accessor returns the descriptor for the backend that is active. This is shown of the text of a
header as a compiler reads it: whatever symbols are defined, the text is well-formed, each program
has one accessor, and the descriptors that this mentions are defined in front of it.
-/

namespace ShaderHeader

open Reading Check

/-! ### Dialects -/

namespace Dialect

/-- No two dialects have the same backend, although some share their symbol. -/
lemma backend_injective : Function.Injective backend := by
  intro d e h
  cases d <;> cases e <;> first | rfl | simp [backend] at h

lemma isWord_backend (d : Dialect) : IsWord d.backend ∧ d.backend ≠ "" := by
  cases d <;> exact ⟨.of_chars rfl, by decide⟩

end Dialect

/-- Whether the parts for a dialect are seen where these symbols are defined. -/
def Options.sees (o : Options) (M : Symbols) (d : Dialect) : Bool :=
  !o.guarded || M d.symbol

lemma Options.all_guard (o : Options) (M : Symbols) (d : Dialect) :
    (d.guard o.guarded).all M = o.sees M d := by
  cases h : o.guarded <;> simp [Dialect.guard, sees, h]

/-! ### What the parts define -/

variable {f : ShaderFile} {cs : Compilations} {o : Options}

lemma Opening.passive_ofEdition {e : Edition} {s : Opening} (hs : Opening.ofEdition? f o e = .ok s)
    (h : ∀ n ∈ s.names, IsWord n) : Passive (s.guide.lines ++ s.declarations.lines) := by
  simp only [Opening.names, List.forall_mem_append] at h
  obtain ⟨-, hdeclarations, -⟩ := Opening.ofEdition?_eq_ok_iff.mp hs
  refine (passive_guide h.1).append (passive_declarations h.2 fun c hc => ?_)
  rcases Declarations.isConstant_of_mem hdeclarations (List.mem_append_left _ hc) with
    ⟨v, input, hname⟩ | ⟨r, hname⟩
  · exact hname ▸ isConstantName_location f.qualifier v input
  · exact hname ▸ isConstantName_slot f.qualifier r

/-- The names in an accessor. -/
def Accessor.names (a : Accessor) : List String :=
  a.name :: a.choices.flatMap fun c => [c.backend, c.descriptor]

lemma Accessor.exists_reads_ofProgram {qualifier program : String} {ds : List Dialect}
    (h : ∀ n ∈ (Accessor.ofProgram qualifier o.guarded ds program).names, IsWord n) :
    ∃ ls, Reads (Accessor.ofProgram qualifier o.guarded ds program).lines ls ∧ Nested ls ∧
      ∀ M, Keeps M ls ((Accessor.ofProgram qualifier o.guarded ds program).tokens M) M := by
  simp only [Accessor.names, List.forall_mem_cons, List.forall_mem_flatMap] at h
  apply Accessor.exists_reads h.1 (by simp [Accessor.ofProgram, Naming.accessor])
  intro c hc
  have hdescriptor := (h.2 c hc).2.1
  obtain ⟨d, -, rfl⟩ := List.mem_map.mp hc
  exact ⟨d.isWord_guard o.guarded, d.isWord_backend, hdescriptor, Naming.descriptor_ne_empty _ _ _⟩

/-! ### What an accessor returns -/

/-- What is to be returned while a backend is active: the descriptor of a dialect whose part is seen
and whose backend this is, and 0 if there is none. If there is one dialect only, it does not matter
which backend is active. -/
structure Dispatches (ds : List Dialect) (sees : Dialect → Bool) (backend : String)
    (descriptor : Dialect → String) (result : Option String) : Prop where
  only : ∀ d, ds = [d] → result = if sees d then some (descriptor d) else none
  active : 1 < ds.length → ∀ d ∈ ds, d.backend = backend → sees d = true →
    result = some (descriptor d)
  inactive : 1 < ds.length → (∀ d ∈ ds, d.backend = backend → sees d = false) → result = none

namespace Dispatches

variable {sees : Dialect → Bool} {backend : String} {descriptor : Dialect → String}

lemma of_singleton (d : Dialect) :
    Dispatches [d] sees backend descriptor (if sees d then some (descriptor d) else none) := by
  refine ⟨?_, fun h => absurd h (by simp), fun h => absurd h (by simp)⟩
  intro e he
  obtain rfl : d = e := by simpa using he
  rfl

/-- As backends differ, at most one dialect can be found. -/
lemma of_find? {ds : List Dialect} (hne : ∀ d, ds ≠ [d]) :
    Dispatches ds sees backend descriptor
      ((ds.find? fun d => sees d ∧ d.backend = backend).map descriptor) := by
  refine ⟨fun d hd => absurd hd (hne d), ?_, ?_⟩
  · -- whatever is found has the backend too, so it is this dialect
    intro _ d hd hbackend hsees
    cases hfind : ds.find? fun d => sees d ∧ d.backend = backend with
    | none =>
      have hnone := List.find?_eq_none.mp hfind d hd
      simp [hsees, hbackend] at hnone
    | some e =>
      have he := List.find?_some hfind
      simp only [decide_eq_true_eq] at he
      obtain rfl := Dialect.backend_injective (he.2.trans hbackend.symm)
      rfl
  · intro _ hunseen
    have hfind : (ds.find? fun d => sees d ∧ d.backend = backend) = none := by
      apply List.find?_eq_none.mpr
      intro d hd h
      simp only [decide_eq_true_eq] at h
      exact absurd h.1 (by simp [hunseen d hd h.2])
    rw [hfind]
    rfl

end Dispatches

section Statements

variable (o) (M : Symbols) (qualifier program : String)

/-- The choices of the accessor of a program. -/
def Options.choices : List Choice :=
  o.dialects.toList.map (Choice.ofDialect qualifier program o.guarded)

variable {o M qualifier program}

lemma statements_of_singleton {d : Dialect} (h : o.dialects.toList = [d]) :
    statements M (o.choices qualifier program) =
      (if o.sees M d then [Statement.give (some (Naming.descriptor qualifier program d))]
        else []) ++ if o.guarded then [Statement.give none] else [] := by
  have hguard : (d.guard o.guarded).isSome = o.guarded := by
    cases h : o.guarded <;> simp [Dialect.guard]
  have hstatements : statements M (o.choices qualifier program) =
      (if (d.guard o.guarded).all M then
        [Statement.give (some (Naming.descriptor qualifier program d))] else []) ++
          if (d.guard o.guarded).isSome then [Statement.give none] else [] := by
    rw [Options.choices, h]
    rfl
  rw [hstatements, o.all_guard, hguard]

lemma statements_of_ne {ds : List Dialect} (h : o.dialects.toList = ds) (hne : ∀ d, ds ≠ [d]) :
    statements M (o.choices qualifier program) =
      ds.flatMap (fun d =>
        if o.sees M d then [.test d.backend (Naming.descriptor qualifier program d)] else []) ++
          [Statement.give none] := by
  simp only [Options.choices, h, ← o.all_guard]
  rcases ds with _ | ⟨d, _ | ⟨d', ds⟩⟩
  · rfl
  · exact absurd rfl (hne d)
  · rw [List.map_cons, List.map_cons]
    simp only [statements, List.flatMap_cons, List.flatMap_map]
    rfl

/-- Every descriptor that is mentioned belongs to a dialect whose part is seen. -/
lemma exists_of_mem_statements {x : String}
    (hx : x ∈ (statements M (o.choices qualifier program)).filterMap Statement.descriptor?) :
    ∃ d ∈ o.dialects.toList, o.sees M d = true ∧ x = Naming.descriptor qualifier program d := by
  obtain ⟨s, hs, hx⟩ := List.mem_filterMap.mp hx
  by_cases hone : ∃ d, o.dialects.toList = [d]
  · -- one dialect: its descriptor is returned without a test
    obtain ⟨d, hd⟩ := hone
    rw [statements_of_singleton hd, List.mem_append] at hs
    rcases hs with hs | hs
    · split_ifs at hs with hsees
      · obtain rfl := List.mem_singleton.mp hs
        exact ⟨d, hd ▸ List.mem_singleton_self d, hsees, (Option.some.inj hx).symm⟩
      · cases hs
    · split_ifs at hs
      · obtain rfl := List.mem_singleton.mp hs
        cases hx
      · cases hs
  · -- several dialects, or none: each has a test
    rw [statements_of_ne rfl (not_exists.mp hone), List.mem_append, List.mem_flatMap] at hs
    rcases hs with ⟨d, hd, hs⟩ | hs
    · split_ifs at hs with hsees
      · obtain rfl := List.mem_singleton.mp hs
        exact ⟨d, hd, hsees, (Option.some.inj hx).symm⟩
      · cases hs
    · obtain rfl := List.mem_singleton.mp hs
      cases hx

lemma returned_tests (backend : String) (ds : List Dialect) :
    returned backend (ds.flatMap (fun d =>
        if o.sees M d then [.test d.backend (Naming.descriptor qualifier program d)] else []) ++
          [Statement.give none]) =
      some ((ds.find? fun d => o.sees M d ∧ d.backend = backend).map
        (Naming.descriptor qualifier program)) := by
  induction ds with
  | nil => rfl
  | cons d ds ih =>
    by_cases hsees : o.sees M d = true
    · by_cases hd : d.backend = backend
      · simp [returned, hsees, hd]
      · simpa [returned, hsees, hd] using ih
    · simpa [hsees] using ih

lemma exists_returned_statements (backend : String) :
    ∃ result, returned backend (statements M (o.choices qualifier program)) = some result ∧
      Dispatches o.dialects.toList (o.sees M) backend (Naming.descriptor qualifier program)
        result := by
  by_cases hone : ∃ d, o.dialects.toList = [d]
  · obtain ⟨d, hd⟩ := hone
    rw [statements_of_singleton hd, hd]
    refine ⟨_, ?_, .of_singleton d⟩
    by_cases hsees : o.sees M d = true
    · simp [hsees, returned]
    · have hguarded : o.guarded = true := by
        simp only [Options.sees, Bool.or_eq_true, not_or] at hsees
        simpa using hsees.1
      simp [hsees, hguarded, returned]
  · have hne := not_exists.mp hone
    rw [statements_of_ne rfl hne]
    exact ⟨_, returned_tests backend _, .of_find? hne⟩

end Statements

/-! ### Headers -/

namespace Header

/-- The names in a header. -/
def names (h : Header) : List String :=
  h.opening.toList.flatMap Opening.names ++ h.sections.flatMap Section.names ++
    h.accessors.flatMap Accessor.names

variable {h : Header} {es : List Edition}

/-- The descriptors that some editions define where these symbols are defined. -/
def descriptors (f : ShaderFile) (sees : Dialect → Bool) (es : List Edition) : List String :=
  es.flatMap fun e =>
    if sees e.dialect then
      e.programs.map fun p => Naming.descriptor f.qualifier p.program.name e.dialect
    else []

lemma MadeFrom.offers_sections (hmade : MadeFrom f cs o h es) (hnames : ∀ n ∈ h.names, IsWord n)
    (htexts : ∀ s ∈ h.sections, ∀ e ∈ s.code, ¬ ['*', '/'] <:+: e.text.toList) :
    ∃ as, Offers (h.sections.flatMap Section.lines) as fun M => descriptors f (o.sees M) es := by
  simp only [names, List.forall_mem_append, List.forall_mem_flatMap] at hnames
  have hsections := hnames.1.2
  rw [hmade.sections] at hsections htexts ⊢
  rw [List.flatMap_map]
  have hoffers := Offers.flatMap fun e he => Section.offers_ofEdition
    (hsections _ (List.mem_map_of_mem he)) (htexts _ (List.mem_map_of_mem he))
  simp only [o.all_guard] at hoffers
  exact ⟨_, hoffers⟩

lemma MadeFrom.exists_reads_accessors (hmade : MadeFrom f cs o h es)
    (hnames : ∀ n ∈ h.names, IsWord n) :
    ∃ ls, Reads (h.accessors.flatMap Accessor.lines) ls ∧ Nested ls ∧
      ∀ M, Keeps M ls (h.accessors.flatMap (Accessor.tokens M)) M := by
  simp only [names, List.forall_mem_append, List.forall_mem_flatMap] at hnames
  have haccessors := hnames.2
  rw [hmade.accessors, accessorsFor] at haccessors ⊢
  generalize f.programs.values = ps at haccessors ⊢
  induction ps with
  | nil => exact ⟨[], .nil, .nil, .nil⟩
  | cons p ps ih =>
    obtain ⟨hp, hps⟩ := List.forall_mem_cons.mp haccessors
    obtain ⟨ls, hls, hnested, hkeeps⟩ := Accessor.exists_reads_ofProgram hp
    obtain ⟨ms, hms, hnested', hkeeps'⟩ := ih hps
    exact ⟨ls ++ ms, hls.append hms, hnested.append hnested',
      fun M => (hkeeps M).append (hkeeps' M)⟩

/-- With a dialect there is an opening, in front of whose guards nothing is defined. -/
lemma MadeFrom.exists_opening (hmade : MadeFrom f cs o h es) (hdialects : o.dialects.toList ≠ [])
    (hnames : ∀ n ∈ h.names, IsWord n) :
    ∃ s ∈ h.opening, Passive (s.guide.lines ++ s.declarations.lines) := by
  obtain ⟨first, es, rfl⟩ : ∃ first es', es = first :: es' := by
    refine List.exists_cons_of_ne_nil ?_
    rintro rfl
    exact hdialects (List.forall₂_nil_right_iff.mp hmade.checked)
  obtain ⟨s, hs, hopening, -⟩ := hmade.exists_opening_of_cons
  refine ⟨s, hs, Opening.passive_ofEdition hopening ?_⟩
  intro n hn
  apply hnames
  simp only [names, List.mem_append, List.mem_flatMap, Option.mem_toList]
  exact .inl (.inl ⟨s, hs, hn⟩)

/-- What a compiler reads of a header if it has the runtime and wants more than declarations. -/
lemma MadeFrom.exists_reads (hmade : MadeFrom f cs o h es) (hdialects : o.dialects.toList ≠ [])
    (hnames : ∀ n ∈ h.names, IsWord n)
    (hfile : ∀ s ∈ h.opening, IsQuotable s.fileName)
    (htexts : ∀ s ∈ h.sections, ∀ e ∈ s.code, ¬ ['*', '/'] <:+: e.text.toList) :
    ∃ ls, Reads h.lines ls ∧ Nested ls ∧ ∀ M : Symbols, M "SOKOL_GFX_INCLUDED" = true →
      M "SOKOL_SHDC_DECL" = false → ∃ M' shared offered as,
        Keeps M ls (shared ++ (offered ++ h.accessors.flatMap (Accessor.tokens M'))) M' ∧
        Defines shared [] [] ∧ Defines offered as (descriptors f (o.sees M') es) ∧
        ∀ s ∈ guardSymbols, M' s = M s := by
  obtain ⟨s, hs, ls₁, hreads₁, hnested₁, hkeeps₁⟩ := hmade.exists_opening hdialects hnames
  obtain ⟨as, ls₂, hreads₂, hnested₂, hkeeps₂⟩ := hmade.offers_sections hnames htexts
  obtain ⟨ls₃, hreads₃, hnested₃, hkeeps₃⟩ := hmade.exists_reads_accessors hnames
  have hpragma : Reads ["#pragma once"] [.neutral] := .of_chars rfl
  have hreads : Reads h.lines ([.neutral] ++ (ls₁ ++ guarded (ls₂ ++ ls₃))) := by
    have hopening : h.opening = some s := hs
    have hguarded := Opening.reads_guarded (hfile s hs) (hreads₂.append hreads₃)
    simpa [lines, hopening, Opening.lines_eq] using hpragma.append (hreads₁.append hguarded)
  refine ⟨_, hreads, .append (.line rfl) (hnested₁.append
    (nested_guarded (hnested₂.append hnested₃))), ?_⟩
  -- the opening may define symbols, but none that the guards depend on
  intro M hgfx hdecl
  obtain ⟨shared, M', hkeeps₁, hshared, hM'⟩ := hkeeps₁ M
  obtain ⟨offered, hkeeps₂, hoffered⟩ := hkeeps₂ M'
  have hgfx' : M' "SOKOL_GFX_INCLUDED" = true := (hM' _ (by decide)).trans hgfx
  have hdecl' : M' "SOKOL_SHDC_DECL" = false := (hM' _ (by decide)).trans hdecl
  exact ⟨M', shared, offered, as M', (Keeps.neutral M).append (hkeeps₁.append
    (keeps_guarded hgfx' hdecl' (hkeeps₂.append (hkeeps₃ M')))), hshared, hoffered, hM'⟩

/-- The descriptors of a program are defined for all dialects whose parts are seen. -/
lemma MadeFrom.mem_descriptors (hmade : MadeFrom f cs o h es) {sees : Dialect → Bool} {d : Dialect}
    (hd : d ∈ o.dialects.toList) (hsees : sees d = true) {p : Program}
    (hp : p ∈ f.programs.values) :
    Naming.descriptor f.qualifier p.name d ∈ descriptors f sees es := by
  obtain ⟨e, he, hcheck⟩ := exists_mem_of_forall₂ hmade.checked.flip hd
  obtain ⟨hdialect, -⟩ := Edition.check?_eq_ok_iff.mp hcheck
  rw [← Edition.map_program_of_check? hcheck] at hp
  obtain ⟨l, hl, rfl⟩ := List.mem_map.mp hp
  refine List.mem_flatMap.mpr ⟨e, he, ?_⟩
  rw [hdialect, if_pos hsees]
  exact List.mem_map_of_mem hl

/-- The accessor of a program is the only function of its name. -/
lemma MadeFrom.filter_accessors (hmade : MadeFrom f cs o h es)
    (hprograms : (f.programs.values.map Program.name).Nodup) {p : Program}
    (hp : p ∈ f.programs.values) (g : Accessor → Function) (hg : ∀ a, (g a).name = a.name) :
    (h.accessors.map g).filter (fun fn => fn.name = Naming.accessor f.qualifier p.name) =
      [g (.ofProgram f.qualifier o.guarded o.dialects.toList p.name)] := by
  have haccessor : ∀ q : Program,
      (g (.ofProgram f.qualifier o.guarded o.dialects.toList q.name)).name =
        Naming.accessor f.qualifier q.name := fun q => hg _
  have hsingle := Keys.filter_eq_singleton hprograms hp
  rw [hmade.accessors, accessorsFor, List.map_map, List.filter_map]
  simp only [Function.comp_def, haccessor, Naming.accessor, String.append_left_inj,
    String.append_right_inj, hsingle, List.map_cons, List.map_nil]

/-- The conditions in the text of a header nest. Whatever is defined beside the runtime, each
program has one accessor, whatever backend is active, this returns what it should, and every
descriptor that it mentions is defined in front of it. A symbol counts as defined or not, and no
macro is replaced by what it stands for. The header's own constants cannot stand for anything in an
accessor unless a program's name starts like that of a constant (`constant_ne_accessor`). -/
theorem accessors_dispatch (hmake : make? f cs o = .ok h) (hdialects : o.dialects.toList ≠ [])
    (hprograms : (f.programs.values.map Program.name).Nodup)
    (hnames : ∀ n ∈ h.names, IsWord n)
    (hfile : ∀ s ∈ h.opening, IsQuotable s.fileName)
    (htexts : ∀ s ∈ h.sections, ∀ e ∈ s.code, ¬ ['*', '/'] <:+: e.text.toList) :
    ∃ ls, Reading.lines h.draft.text = some ls ∧ Nested ls ∧
      ∀ M : Symbols, M "SOKOL_GFX_INCLUDED" = true → M "SOKOL_SHDC_DECL" = false →
        ∃ ts, preprocess M ls = some ts ∧ ∀ p ∈ f.programs.values, ∃ fn body,
          (functions [] ts).filter (fun fn => fn.name = Naming.accessor f.qualifier p.name) = [fn] ∧
          fn.body = some body ∧ (∀ x ∈ body.filterMap Statement.descriptor?, x ∈ fn.known) ∧
          ∀ backend, ∃ result, returned backend body = some result ∧
            Dispatches o.dialects.toList (o.sees M) backend (Naming.descriptor f.qualifier p.name)
              result := by
  obtain ⟨es, hmade⟩ := exists_madeFrom hmake
  obtain ⟨ls, hreads, hnested, hkept⟩ := hmade.exists_reads hdialects hnames hfile htexts
  have htext : h.draft.text = joinLines h.lines := by simp [draft, Draft.empty]
  refine ⟨ls ++ [.code []], htext ▸ hreads.lines_eq, hnested.append (.line rfl), ?_⟩
  intro M hgfx hdecl
  obtain ⟨M', shared, offered, _, hkeeps, hshared, hoffered, hM'⟩ := hkept M hgfx hdecl
  have hsees : o.sees M' = o.sees M := by
    funext d
    rw [Options.sees, Options.sees, hM' _ d.symbol_mem_guardSymbols]
  refine ⟨_, (hkeeps.append (.code M' [])).preprocess_eq, ?_⟩
  intro p hp
  -- only accessors are functions, and all descriptors are in front of them
  have hfunctions : functions []
      (shared ++ (offered ++ h.accessors.flatMap (Accessor.tokens M')) ++ []) =
        h.accessors.map fun a =>
          ⟨a.name, descriptors f (o.sees M') es, some (statements M' a.choices)⟩ := by
    have haccessors := Accessor.functions_flatMap (descriptors f (o.sees M') es) M' h.accessors []
    rw [List.append_nil, functions, List.append_nil] at haccessors
    rw [List.append_nil, hshared.functions_append, hoffered.functions_append]
    exact haccessors
  rw [hfunctions]
  refine ⟨_, _, hmade.filter_accessors hprograms hp _ fun _ => rfl, rfl, ?_, ?_⟩
  · intro x hx
    obtain ⟨d, hd, hseen, rfl⟩ := exists_of_mem_statements hx
    exact hmade.mem_descriptors hd hseen hp
  · intro backend
    rw [← hsees]
    exact exists_returned_statements backend

end Header

namespace Sample

/-- Nothing in the small header keeps it from being read. -/
lemma exists_readable_header : ∃ h, Header.make? file compilations options = .ok h ∧
    (∀ n ∈ h.names, IsWord n) ∧
    (∀ s ∈ h.opening, IsQuotable s.fileName) ∧
    ∀ s ∈ h.sections, ∀ e ∈ s.code, ¬ ['*', '/'] <:+: e.text.toList := by
  obtain ⟨h, hmake⟩ := exists_header
  obtain ⟨es, hmade⟩ := Header.exists_madeFrom hmake
  -- the opening is that of the first edition
  have hopening : ∀ s ∈ h.opening, (∀ n ∈ s.names, IsWord n) ∧ s.fileName = "quad.h" := by
    intro s hs
    obtain ⟨first, -, ⟨d, hd, hfirst⟩, hopening, -⟩ := hmade.exists_ofEdition hs
    obtain rfl : Dialect.glsl330 = d := Option.some.inj hd
    obtain ⟨first', hfirst', hchecks⟩ : ∃ e, Edition.check? file .glsl330 compilations = .ok e ∧
        (Opening.ofEdition? file options e).toOption.map (fun s => (s.names.all
          fun n => n.toList.all isWordChar, s.fileName)) = some (true, "quad.h") :=
      exists_of_map_toOption (by decide +kernel)
    obtain rfl : first = first' := Except.ok.inj (hfirst.symm.trans hfirst')
    rw [hopening] at hchecks
    obtain ⟨hnames, hfile⟩ := Prod.mk.inj (Option.some.inj hchecks)
    exact ⟨fun n hn c hc => List.all_eq_true.mp (List.all_eq_true.mp hnames n hn) c hc, hfile⟩
  -- there is one section for each edition
  have hsections : ∀ s ∈ h.sections, (∀ n ∈ s.names, IsWord n) ∧
      ∀ e ∈ s.code, ¬ ['*', '/'] <:+: e.text.toList := by
    rw [hmade.sections]
    intro s hs
    obtain ⟨e, he, rfl⟩ := List.mem_map.mp hs
    obtain ⟨d, hd, hcheck⟩ := hmade.exists_check? he
    obtain ⟨e', hcheck', hchecks⟩ : ∃ e, Edition.check? file d compilations = .ok e ∧
        ((Section.ofEdition file e true).names.all fun n => n.toList.all isWordChar,
          (Section.ofEdition file e true).code.all fun c => !c.text.toList.contains '*') =
        (true, true) := by
      apply exists_of_map_toOption
      clear hcheck
      revert d
      decide +kernel
    obtain rfl : e = e' := Except.ok.inj (hcheck.symm.trans hcheck')
    obtain ⟨hnames, hstars⟩ := Prod.mk.inj hchecks
    refine ⟨fun n hn c hc => List.all_eq_true.mp (List.all_eq_true.mp hnames n hn) c hc, ?_⟩
    intro c hc hcloses
    -- a text without a star does not end a comment
    have hstar := List.all_eq_true.mp hstars c hc
    simp [hcloses.subset List.mem_cons_self] at hstar
  have haccessors : ∀ a ∈ h.accessors, ∀ n ∈ a.names, IsWord n := by
    rw [hmade.accessors]
    decide +kernel
  refine ⟨h, hmake, fun n hn => ?_, fun s hs => ?_, fun s hs => (hsections s hs).2⟩
  · simp only [Header.names, List.mem_append, List.mem_flatMap, Option.mem_toList] at hn
    obtain (⟨s, hs, hn⟩ | ⟨s, hs, hn⟩) | ⟨a, ha, hn⟩ := hn
    · exact (hopening s hs).1 n hn
    · exact (hsections s hs).1 n hn
    · exact haccessors a ha n hn
  · rw [(hopening s hs).2]
    decide

/-- The symbols of a program that runs on one dialect of the small header. -/
def symbols (s : String) : Bool :=
  s = "SOKOL_GFX_INCLUDED" ∨ s = "SOKOL_D3D11"

/-- Where one dialect is seen, its descriptor is returned for its backend only. -/
theorem accessors_dispatch_of_small_header :
    ∃ h ls ts fn body, Header.make? file compilations options = .ok h ∧
      Reading.lines h.draft.text = some ls ∧ Nested ls ∧ preprocess symbols ls = some ts ∧
      (functions [] ts).filter (fun fn => fn.name = "quad_shader_desc") = [fn] ∧
      fn.body = some body ∧
      returned "SG_BACKEND_D3D11" body = some (some "quad_shader_desc_hlsl5") ∧
      returned "SG_BACKEND_METAL_MACOS" body = some none := by
  obtain ⟨h, hmake, hnames, hfile, htexts⟩ := exists_readable_header
  obtain ⟨ls, hlines, hnested, hdispatch⟩ := Header.accessors_dispatch hmake (by decide) (by decide)
    hnames hfile htexts
  obtain ⟨ts, hts, hprograms⟩ := hdispatch symbols (by decide) (by decide)
  obtain ⟨fn, body, hfn, hbody, -, hreturned⟩ := hprograms ⟨"quad", "vs", "fs", 30⟩ (by decide)
  refine ⟨h, ls, ts, fn, body, hmake, hlines, hnested, hts, hfn, hbody, ?_, ?_⟩
  · obtain ⟨result, hresult, hspec⟩ := hreturned "SG_BACKEND_D3D11"
    rw [hresult, hspec.active (by decide) .hlsl5 (by decide) rfl (by decide)]
    rfl
  · obtain ⟨result, hresult, hspec⟩ := hreturned "SG_BACKEND_METAL_MACOS"
    rw [hresult, hspec.inactive (by decide) (by decide)]

end Sample

end ShaderHeader
