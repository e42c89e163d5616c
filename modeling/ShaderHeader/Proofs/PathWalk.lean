import Mathlib.Data.List.Basic
import Mathlib.Tactic.Common
import ShaderHeader.Proofs.Check
import ShaderHeader.Release.FileTree

/-!
# Following paths

A path is followed from directory to directory, so it leads to the same place in all trees with the
same directories (`SameDirectories`). This is what a tree has in common with the one that it is
after a file has been put into it, wherever there was no directory before.
-/

namespace ShaderHeader

open Check

namespace FileTree

variable {t u : FileTree} {p q : Place} {components : List String} {component path : String}

/-! ### Steps -/

lemma step?_eq_ok_iff :
    t.step? p component = .ok q ↔ t.find? p = some .directory ∧ p.next component = q := by
  rw [step?]
  split <;> simp [*]

lemma directory?_eq_ok_iff :
    t.directory? q components = .ok p ↔
      components.foldlM t.step? q = .ok p ∧ t.find? p = some .directory := by
  have hdot : ∀ q : Place, q.next "." = q := fun q => if_pos rfl
  simp only [directory?, List.foldlM_append, bind_eq_ok_iff, List.foldlM_cons, List.foldlM_nil,
    step?_eq_ok_iff, hdot, pure_eq_ok_iff]
  constructor
  · rintro ⟨q, hq, _, ⟨hdirectory, rfl⟩, rfl⟩
    exact ⟨hq, hdirectory⟩
  · rintro ⟨hp, hdirectory⟩
    exact ⟨p, hp, p, ⟨hdirectory, rfl⟩, rfl⟩

/-- A file can get a path that ends in a name, if the path up to this name leads to a directory and
no directory has the path itself. -/
lemma target?_eq_ok_iff :
    t.target? path = .ok q ↔
      ∃ name p, (Path.components path).getLast? = some name ∧
        t.directory? (t.origin path) (Path.components path).dropLast = .ok p ∧
        name ≠ "." ∧ name ≠ ".." ∧ Path.endsInSlash path = false ∧
        t.find? (p ++ [name]) ≠ some .directory ∧ p ++ [name] = q := by
  cases hlast : (Path.components path).getLast? with
  | none      => simp [target?, hlast]
  | some name =>
    simp only [target?, hlast, bind_eq_ok_iff, Option.some.injEq]
    constructor
    · rintro ⟨p, hp, h⟩
      split_ifs at h with hdots hslash hdirectory
      obtain ⟨hdot, hdots⟩ := not_or.mp hdots
      exact ⟨name, p, rfl, hp, hdot, hdots, by simpa using hslash, hdirectory, Except.ok.inj h⟩
    · rintro ⟨_, p, rfl, hp, hdot, hdots, hslash, hdirectory, rfl⟩
      exact ⟨p, hp, by simp [hdot, hdots, hslash, hdirectory]⟩

/-- Such a path leads to the place of the file. -/
lemma follow?_of_target? (h : t.target? path = .ok q) : t.follow? path = .ok q := by
  obtain ⟨name, p, hlast, hp, hdot, hdots, -, -, rfl⟩ := target?_eq_ok_iff.mp h
  obtain ⟨hwalk, hdirectory⟩ := directory?_eq_ok_iff.mp hp
  have hnext : p.next name = p ++ [name] := by simp [Place.next, hdot, hdots]
  have hcomponents : (Path.components path).dropLast ++ [name] = Path.components path :=
    List.dropLast_append_getLast? name hlast
  rw [follow?, ← hcomponents, List.foldlM_append]
  refine bind_eq_ok_iff.mpr ⟨p, hwalk, ?_⟩
  rw [List.foldlM_cons]
  exact bind_eq_ok_iff.mpr ⟨_, step?_eq_ok_iff.mpr ⟨hdirectory, hnext⟩, rfl⟩

lemma find?_of_target? (h : t.target? path = .ok q) : t.find? q ≠ some .directory := by
  obtain ⟨name, p, -, -, -, -, -, hdirectory, rfl⟩ := target?_eq_ok_iff.mp h
  exact hdirectory

/-- A file is read if its path leads to it. -/
lemma read?_eq_some_iff {text : String} :
    t.read? path = some text ↔
      ∃ p, t.follow? path = .ok p ∧ t.find? p = some (.file text) ∧
        Path.endsInSlash path = false := by
  unfold read?
  cases hwalk : t.follow? path with
  | error refusal => simp
  | ok p =>
    cases hfind : t.find? p with
    | none => simp [hfind]
    | some e =>
      cases e with
      | directory => simp [hfind]
      | file text' => simp [hfind, and_comm]

/-! ### The same directories -/

/-- Both trees have the same directories, and a program runs in the same one of them. -/
structure SameDirectories (t u : FileTree) : Prop where
  workingDirectory : t.workingDirectory = u.workingDirectory
  find? : ∀ p, t.find? p = some .directory ↔ u.find? p = some .directory

namespace SameDirectories

variable (h : SameDirectories t u)
include h

lemma origin : t.origin path = u.origin path := by
  rw [FileTree.origin, FileTree.origin, h.workingDirectory]

lemma foldlM_step? :
    components.foldlM t.step? p = .ok q ↔ components.foldlM u.step? p = .ok q := by
  induction components generalizing p with
  | nil => rfl
  | cons c cs ih =>
    simp only [List.foldlM_cons, bind_eq_ok_iff, step?_eq_ok_iff, h.find? p, ih]

lemma follow? : t.follow? path = .ok q ↔ u.follow? path = .ok q := by
  rw [FileTree.follow?, FileTree.follow?, h.origin]
  exact h.foldlM_step?

lemma target? : t.target? path = .ok q ↔ u.target? path = .ok q := by
  simp only [target?_eq_ok_iff, directory?_eq_ok_iff, h.origin, h.foldlM_step?, h.find?, ne_eq]

end SameDirectories

/-! ### One more file -/

lemma not_prefix_workingDirectory (h : t.find? p ≠ some .directory) :
    ¬ p <+: t.workingDirectory :=
  fun hprefix => h (if_pos hprefix)

lemma find?_put_self (h : t.find? p ≠ some .directory) (e : FileEntry) :
    (t.put p e).find? p = some e := by
  rw [find?_put t p p e (not_prefix_workingDirectory h), if_pos rfl]

lemma find?_put_of_ne (h : q ≠ p) (e : FileEntry) : (t.put p e).find? q = t.find? q := by
  by_cases hq : q <+: t.workingDirectory
  · rw [find?, find?, put_workingDirectory, if_pos hq, if_pos hq]
  · rw [find?_put t p q e hq, if_neg h]

/-- If a file is put where no directory is, then directories are where they were. -/
lemma sameDirectories_put (h : t.find? p ≠ some .directory) (text : String) :
    SameDirectories (t.put p (.file text)) t where
  workingDirectory := rfl
  find? q := by
    by_cases hq : q = p
    · subst hq
      simp [find?_put_self h, h]
    · rw [find?_put_of_ne hq]

/-- The file is read by the path that has led to its place. -/
lemma read?_put_target (h : t.target? path = .ok q) (text : String) :
    (t.put q (.file text)).read? path = some text := by
  have hnone := find?_of_target? h
  obtain ⟨-, -, -, -, -, -, hslash, -⟩ := target?_eq_ok_iff.mp h
  refine read?_eq_some_iff.mpr ⟨q, ?_, find?_put_self hnone _, hslash⟩
  exact (sameDirectories_put hnone text).follow?.mpr (follow?_of_target? h)

/-- All other paths are read as before. -/
lemma read?_put_of_ne {text : String} (h : t.find? q ≠ some .directory)
    (hpath : (t.put q (.file text)).follow? path ≠ .ok q) :
    (t.put q (.file text)).read? path = t.read? path := by
  have hsame := sameDirectories_put h text
  apply Option.ext
  intro text'
  rw [read?_eq_some_iff, read?_eq_some_iff]
  constructor
  · rintro ⟨p, hp, hfile, hslash⟩
    have hne : p ≠ q := fun heq => hpath (heq ▸ hp)
    exact ⟨p, hsame.follow?.mp hp, find?_put_of_ne hne _ ▸ hfile, hslash⟩
  · rintro ⟨p, hp, hfile, hslash⟩
    have hp := hsame.follow?.mpr hp
    have hne : p ≠ q := fun heq => hpath (heq ▸ hp)
    exact ⟨p, hp, (find?_put_of_ne hne _).trans hfile, hslash⟩

end FileTree

end ShaderHeader
