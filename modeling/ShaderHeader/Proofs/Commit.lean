import ShaderHeader.Proofs.Agreement
import ShaderHeader.Proofs.PathWalk
import ShaderHeader.Release

/-!
# Putting a header in its place

A staging file is made where there is nothing yet, and that is all that is known of its name. It is
no directory, so it does not change where paths lead, and it leaves no trace: in the end either
there is one more file at the end of the path or nothing has happened at all.
-/

namespace ShaderHeader

open Check

/-! ### The staging file -/

namespace FileTree

variable {t : FileTree} {p : Place}

/-- A staging file of this name can be made: nothing has the name in the directory in which it is
made. -/
def IsFreshName (t : FileTree) (path staging : String) : Prop :=
  ∀ directory, t.stagingDirectory? path = .ok directory → t.find? (directory ++ [staging]) = none

/-- A name that is not in use can be taken. -/
lemma isFreshName_freshName (t : FileTree) (path : String) :
    t.IsFreshName path (t.freshName path) :=
  fun directory _ => t.find?_freshName directory path

lemma remove_eq_self (h : t.find? p = none) : t.remove p = t := by
  have hentries : t.entries.filter (fun e => e.1 ≠ p) = t.entries := by
    refine List.filter_eq_self.mpr fun e he => ?_
    rw [decide_eq_true_eq]
    rintro rfl
    unfold find? at h
    split_ifs at h
    rw [Option.map_eq_none_iff, List.find?_eq_none] at h
    exact h e he (decide_eq_true rfl)
  rw [remove, hentries]

/-- What has been put where nothing was can be taken away again. -/
lemma remove_put (h : t.find? p = none) (e : FileEntry) : (t.put p e).remove p = t := by
  have hnew : (t.put p e).remove p = (t.remove p).remove p := by simp [put, remove]
  rw [hnew, remove_eq_self h, remove_eq_self h]

end FileTree

/-! ### Committing -/

namespace Draft

variable {d : Draft} {t t' : FileTree} {path output staging : String}

/-- A draft is committed as if its text were written in one step. -/
lemma commit_eq_ok_iff (hfresh : t.IsFreshName output staging) :
    d.commit t path output staging = (t', .ok ()) ↔
      ∃ directory target, t.stagingDirectory? output = .ok directory ∧
        t.target? output = .ok target ∧ t' = t.put target (.file d.text) := by
  rw [commit]
  cases hdirectory : t.stagingDirectory? output with
  | error refusal => simp
  | ok directory =>
    have hfree := hfresh directory hdirectory
    have hsame : (t.put (directory ++ [staging]) (.file d.text)).SameDirectories t :=
      FileTree.sameDirectories_put (by simp [hfree]) d.text
    have hstaged : (t.put (directory ++ [staging]) (.file d.text)).find? (directory ++ [staging]) =
        some (.file d.text) := FileTree.find?_put_self (by simp [hfree]) _
    -- the target is looked up beside the staging file, which is no directory on the way to it
    simp only [← hsame.target?]
    cases (t.put (directory ++ [staging]) (.file d.text)).target? output with
    | error refusal => simp
    | ok target =>
      -- the staging file may itself be where the output goes, and then it stays
      simp only [FileTree.move, hstaged, FileTree.remove_put hfree]
      constructor
      · rintro h
        exact ⟨directory, target, rfl, rfl, (congrArg Prod.fst h).symm⟩
      · rintro ⟨_, _, ⟨⟩, ⟨⟩, rfl⟩
        rfl

/-- A draft that is not committed leaves the tree as it was. -/
lemma eq_of_commit_eq_error (hfresh : t.IsFreshName output staging) {failure : Failure}
    (h : d.commit t path output staging = (t', .error failure)) :
    t' = t ∧ ∃ refusal, failure = ⟨path, 0, .notOpened output refusal⟩ ∨
      failure = ⟨path, 0, .notReplaced output refusal⟩ := by
  rw [commit] at h
  cases hdirectory : t.stagingDirectory? output with
  | error refusal =>
    rw [hdirectory] at h
    obtain ⟨htree, hfailure⟩ := Prod.mk.inj h
    exact ⟨htree.symm, refusal, .inl (Except.error.inj hfailure).symm⟩
  | ok directory =>
    simp only [hdirectory] at h
    split at h
    · -- the staging file could not be moved and is taken away again
      next refusal _ =>
      obtain ⟨htree, hfailure⟩ := Prod.mk.inj h
      rw [FileTree.remove_put (hfresh directory hdirectory)] at htree
      exact ⟨htree.symm, refusal, .inr (Except.error.inj hfailure).symm⟩
    · cases congrArg Prod.snd h

end Draft

/-! ### Releases -/

namespace Release

variable {f : ShaderFile} {cs : Compilations} {o : Options} {t t' : FileTree} {staging : String}

/-- A release that fails leaves the tree as it was. -/
lemma eq_of_build_eq_error (hfresh : t.IsFreshName o.output staging) {failure : Failure}
    (h : build f cs o t staging = (t', .error failure)) :
    t' = t ∧ (Header.make? f cs o = .error failure ∨
      ∃ refusal, failure = ⟨f.path, 0, .notOpened o.output refusal⟩ ∨
        failure = ⟨f.path, 0, .notReplaced o.output refusal⟩) := by
  rw [build] at h
  cases hmake : Header.make? f cs o with
  | error failure' =>
    rw [hmake] at h
    obtain ⟨rfl, hfailure⟩ := Prod.mk.inj h
    exact ⟨rfl, .inl (congrArg _ (Except.error.inj hfailure))⟩
  | ok header =>
    simp only [hmake] at h
    split at h
    · next u failure' hcommit =>
      obtain ⟨rfl, hfailure⟩ := Prod.mk.inj h
      obtain rfl := Except.error.inj hfailure
      obtain ⟨rfl, hrefused⟩ := Draft.eq_of_commit_eq_error hfresh hcommit
      exact ⟨rfl, .inr hrefused⟩
    · cases congrArg Prod.snd h

/-- Otherwise it is the tree with one more file. -/
lemma build_eq_ok_iff (hfresh : t.IsFreshName o.output staging) {r : Release} :
    build f cs o t staging = (t', .ok r) ↔
      ∃ h directory target, Header.make? f cs o = .ok h ∧
        t.stagingDirectory? o.output = .ok directory ∧ t.target? o.output = .ok target ∧
        t' = t.put target (.file h.draft.text) ∧ r = ⟨o.output, h.draft.size, h.warnings⟩ := by
  rw [build]
  cases hmake : Header.make? f cs o with
  | error failure => simp
  | ok header =>
    have hcommit : ∀ u, header.draft.commit t f.path o.output staging = (u, .ok ()) ↔ _ :=
      fun u => Draft.commit_eq_ok_iff hfresh
    constructor
    · intro h
      dsimp only at h
      split at h
      · cases congrArg Prod.snd h
      · next u hok =>
        obtain ⟨directory, target, hdirectory, htarget, rfl⟩ := (hcommit u).mp hok
        obtain ⟨rfl, hrelease⟩ := Prod.mk.inj h
        exact ⟨header, directory, target, rfl, hdirectory, htarget, rfl,
          (Except.ok.inj hrelease).symm⟩
    · rintro ⟨_, directory, target, ⟨⟩, hdirectory, htarget, rfl, rfl⟩
      have hok := (hcommit _).mpr ⟨directory, target, hdirectory, htarget, rfl⟩
      simp only [hok]

/-- Whatever fresh name the staging file has, a release that fails leaves the tree as it was, and
one that does not fail leaves the whole header at the end of the output's path, with the size that
is reported, and nothing else in the tree has changed. It fails only if there is no header, if the
directory of the output is none or if the output cannot be a file. -/
theorem build_atomic (f : ShaderFile) (cs : Compilations) (o : Options) (t : FileTree)
    (staging : String) (hfresh : t.IsFreshName o.output staging) :
    (∀ t' failure, build f cs o t staging = (t', .error failure) → t' = t ∧
      (Header.make? f cs o = .error failure ∨
        ∃ refusal, failure = ⟨f.path, 0, .notOpened o.output refusal⟩ ∨
          failure = ⟨f.path, 0, .notReplaced o.output refusal⟩)) ∧
    (∀ t' r, build f cs o t staging = (t', .ok r) →
      ∃ h target, Header.make? f cs o = .ok h ∧ t'.read? o.output = some h.draft.text ∧
        r = ⟨o.output, h.draft.text.utf8ByteSize, h.warnings⟩ ∧ t.target? o.output = .ok target ∧
        t'.follow? o.output = .ok target ∧ t'.workingDirectory = t.workingDirectory ∧
        (∀ place, place ≠ target → t'.find? place = t.find? place) ∧
        ∀ path, t'.follow? path ≠ .ok target → t'.read? path = t.read? path) ∧
    ((∃ t' r, build f cs o t staging = (t', .ok r)) ↔
      (∃ h, Header.make? f cs o = .ok h) ∧
        (∃ directory, t.stagingDirectory? o.output = .ok directory) ∧
        ∃ target, t.target? o.output = .ok target) := by
  refine ⟨fun _ _ => eq_of_build_eq_error hfresh, ?_, ?_⟩
  · intro t' r hbuild
    obtain ⟨h, -, target, hmake, -, htarget, rfl, rfl⟩ := (build_eq_ok_iff hfresh).mp hbuild
    have hnone := FileTree.find?_of_target? htarget
    have hsame := FileTree.sameDirectories_put hnone h.draft.text
    exact ⟨h, target, hmake, FileTree.read?_put_target htarget _, rfl, htarget,
      hsame.follow?.mpr (FileTree.follow?_of_target? htarget), rfl,
      fun place hne => FileTree.find?_put_of_ne hne _, fun path => FileTree.read?_put_of_ne hnone⟩
  · simp only [build_eq_ok_iff hfresh]
    constructor
    · rintro ⟨t', r, h, directory, target, hmake, hdirectory, htarget, -, -⟩
      exact ⟨⟨h, hmake⟩, ⟨directory, hdirectory⟩, target, htarget⟩
    · rintro ⟨⟨h, hmake⟩, ⟨directory, hdirectory⟩, target, htarget⟩
      exact ⟨_, _, h, directory, target, hmake, hdirectory, htarget, rfl, rfl⟩

end Release

namespace Sample

/-- A tree in which the header has been released before. -/
def released : FileTree :=
  ((({} : FileTree).makeDirectory "include").write "include/quad.h" "// an older header\n").write
    "notes.txt" "to be done\n"

/-- The small header's options, with the output given by its path from the root. -/
def rootedOptions : Options :=
  { options with output := "/work/include/quad.h" }

/-- A new release takes the place of the older one. If it fails then the older one stays. -/
theorem build_atomic_of_released :
    (∃ t' r h, Release.build file compilations rootedOptions released ".tmpq3WzXa" = (t', .ok r) ∧
      Header.make? file compilations rootedOptions = .ok h ∧
      t'.read? "/work/include/quad.h" = some h.draft.text ∧
      r.bytes = h.draft.text.utf8ByteSize ∧
      t'.find? ["work", "notes.txt"] = some (.file "to be done\n") ∧
      t'.find? ["work", "include", ".tmpq3WzXa"] = none) ∧
    ∃ failure, Release.build file .empty options released = (released, .error failure) := by
  constructor
  · -- the directory has the older header and nothing by the name of the staging file
    have hfresh : released.IsFreshName rootedOptions.output ".tmpq3WzXa" := by
      intro directory h
      obtain rfl : ["work", "include"] = directory := by
        have hinclude : released.stagingDirectory? "/work/include/quad.h" =
            .ok ["work", "include"] := by decide
        exact Except.ok.inj (hinclude.symm.trans h)
      decide
    obtain ⟨-, hok, hiff⟩ :=
      Release.build_atomic file compilations rootedOptions released ".tmpq3WzXa" hfresh
    have hquad : released.target? "/work/include/quad.h" = .ok ["work", "include", "quad.h"] := by
      decide
    obtain ⟨h, hmake⟩ := exists_header_of_dialects (o := rootedOptions) rfl
    obtain ⟨t', r, hbuild⟩ :=
      hiff.mpr ⟨⟨h, hmake⟩, ⟨["work", "include"], by decide⟩, _, hquad⟩
    obtain ⟨h, target, hmake, hread, rfl, htarget, -, -, hplaces, -⟩ := hok t' r hbuild
    obtain rfl : ["work", "include", "quad.h"] = target :=
      Except.ok.inj (hquad.symm.trans htarget)
    refine ⟨t', _, h, hbuild, hmake, hread, rfl, ?_, ?_⟩
    · rw [hplaces ["work", "notes.txt"] (by decide)]
      decide
    · rw [hplaces ["work", "include", ".tmpq3WzXa"] (by decide)]
      decide
  · -- without compilations there is no header
    obtain ⟨herror, -⟩ := Release.build_atomic file .empty options released _
      (released.isFreshName_freshName _)
    have hfails : (Release.build file .empty options released).2.isOk = false := by decide
    cases hbuild : Release.build file .empty options released with
    | mk t' result =>
      cases result with
      | error failure => exact ⟨failure, by rw [(herror t' failure hbuild).1]⟩
      | ok r =>
        rw [hbuild] at hfails
        cases hfails

end Sample

end ShaderHeader
