import ShaderHeader.Failure
import ShaderHeader.Path

/-!
# File trees

A file tree is what a program finds on its file system. A place in it is given by the names on the
way there from the root. A program runs in a directory of the tree, and this is where a path starts
unless it starts at the root. Following a path fails where the path goes on from a file or from
nothing.
-/

namespace ShaderHeader

/-- The names on the way from the root to a file or a directory. -/
abbrev Place := List String

/-- Where a component of a path leads from a place. Around the root there is nothing else. -/
def Place.next (p : Place) (component : String) : Place :=
  if component = "." then p
  else if component = ".." then p.dropLast
  else p ++ [component]

/-- A directory, or a file with its text. -/
inductive FileEntry
  | directory
  | file (text : String)
  deriving DecidableEq

/-- Everything in the tree, each entry with its place, and where in it the program runs. -/
structure FileTree where
  entries : List (Place × FileEntry) := []
  workingDirectory : Place := ["work"]
  deriving DecidableEq

namespace FileTree

variable (t : FileTree)

/-! ### Entries -/

/-- What is at a place. The working directory and those around it are always there. -/
def find? (p : Place) : Option FileEntry :=
  if p <+: t.workingDirectory then some .directory
  else (t.entries.find? fun e => e.1 = p).map (·.2)

/-- Takes away what is at a place. -/
def remove (p : Place) : FileTree :=
  { t with entries := t.entries.filter fun e => e.1 ≠ p }

/-- Puts an entry in the place of what was there. -/
def put (p : Place) (e : FileEntry) : FileTree :=
  { t with entries := (t.remove p).entries ++ [(p, e)] }

@[simp] theorem remove_workingDirectory (p : Place) :
    (t.remove p).workingDirectory = t.workingDirectory := rfl

@[simp] theorem put_workingDirectory (p : Place) (e : FileEntry) :
    (t.put p e).workingDirectory = t.workingDirectory := rfl

theorem find?_remove (p q : Place) (hq : ¬ q <+: t.workingDirectory) :
    (t.remove p).find? q = if q = p then none else t.find? q := by
  rw [find?, find?, remove_workingDirectory, if_neg hq, if_neg hq, remove, List.find?_filter]
  by_cases h : q = p
  · rw [if_pos h, Option.map_eq_none_iff, List.find?_eq_none]
    intro e _
    by_cases he : e.1 = p <;> simp [he, h]
  · rw [if_neg h]
    congr 2
    funext e
    by_cases he : e.1 = q <;> simp [he, h]

theorem find?_put (p q : Place) (e : FileEntry) (hq : ¬ q <+: t.workingDirectory) :
    (t.put p e).find? q = if q = p then some e else t.find? q := by
  have hr := t.find?_remove p q hq
  rw [find?, remove_workingDirectory, if_neg hq] at hr
  rw [find?, put_workingDirectory, if_neg hq, put, List.find?_append]
  by_cases h : q = p
  · rw [if_pos h] at hr ⊢
    rw [Option.map_eq_none_iff.1 hr]
    simp [h]
  · rw [if_neg h] at hr ⊢
    simp [Ne.symm h, hr]

/-- Moves an entry to another place, instead of what was there. -/
def move (source target : Place) : FileTree :=
  match t.find? source with
  | some e => (t.remove source).put target e
  | none   => t

/-- The names that are in use. -/
def names : List String :=
  t.workingDirectory ++ t.entries.flatMap (·.1)

/-- A name that is neither in use nor on a path, since it is longer than all those names. -/
def freshName (path : String) : String :=
  ".tmp" ++ String.join (Path.components path ++ t.names)

theorem length_freshName (path : String) :
    (t.freshName path).length = 4 + (String.join (Path.components path ++ t.names)).length := by
  rw [freshName, String.length_append, show (".tmp" : String).length = 4 from rfl]

theorem length_le_length_join {n : String} {ns : List String} (h : n ∈ ns) :
    n.length ≤ (String.join ns).length := by
  induction ns with
  | nil => cases h
  | cons m ns ih =>
    rw [String.join_cons, String.length_append]
    rcases List.mem_cons.1 h with rfl | h
    · omega
    · have := ih h
      omega

theorem freshName_notMem (path : String) :
    t.freshName path ∉ Path.components path ++ t.names := by
  intro h
  have := length_le_length_join h
  rw [length_freshName] at this
  omega

/-- So there is nothing of this name in any directory. -/
theorem find?_freshName (p : Place) (path : String) :
    t.find? (p ++ [t.freshName path]) = none := by
  have hnames : t.freshName path ∉ t.names := fun h =>
    t.freshName_notMem path (List.mem_append_right _ h)
  obtain ⟨hdirectory, hentries⟩ := not_or.mp (mt List.mem_append.mpr hnames)
  rw [find?, if_neg fun h => hdirectory (h.subset (by simp)), Option.map_eq_none_iff,
    List.find?_eq_none]
  intro e he heq
  refine hentries (List.mem_flatMap.mpr ⟨e, he, ?_⟩)
  simp [of_decide_eq_true heq]

/-! ### Following paths -/

/-- Goes on from a directory by one component of a path. -/
def step? (p : Place) (component : String) : Except Refusal Place :=
  match t.find? p with
  | none            => .error .notFound
  | some (.file _)  => .error .notADirectory
  | some .directory => .ok (p.next component)

/-- The directory to which some components lead from a place. -/
def directory? (p : Place) (components : List String) : Except Refusal Place :=
  (components ++ ["."]).foldlM t.step? p

/-- Where a path starts. -/
def origin (path : String) : Place :=
  if Path.isAbsolute path then [] else t.workingDirectory

/-- Where a path leads. -/
def follow? (path : String) : Except Refusal Place :=
  (Path.components path).foldlM t.step? (t.origin path)

/-- The directory in which a file is staged before it gets a path. A path without parts lies in no
directory, even if it is the root's own, and the working directory is taken for it. -/
def stagingDirectory? (path : String) : Except Refusal Place :=
  if Path.parts path = [] then t.directory? t.workingDirectory []
  else t.directory? (t.origin path) (Path.directory path)

/-- Where a file may be moved to so that it has a path. There may be another file at that place but
no directory, and a path that ends in a slash is no path of a file. -/
def target? (path : String) : Except Refusal Place :=
  let components := Path.components path
  match components.getLast? with
  | none      => .error (if path = "" then .notFound else .isADirectory)
  | some name => do
    let p ← t.directory? (t.origin path) components.dropLast
    if name = "." ∨ name = ".." then .error .isADirectory
    else if Path.endsInSlash path then .error .notADirectory
    else if t.find? (p ++ [name]) = some .directory then .error .isADirectory
    else .ok (p ++ [name])

/-- The text of the file that a path leads to. -/
def read? (path : String) : Option String :=
  match t.follow? path with
  | .error _ => none
  | .ok p    =>
    match t.find? p with
    | some (.file text) => if Path.endsInSlash path then none else some text
    | _                 => none

/-! ### Filling a tree -/

/-- Puts a file at the end of a path. -/
def write (path text : String) : FileTree :=
  t.put ((Path.components path).foldl Place.next (t.origin path)) (.file text)

/-- Follows components from a place and makes a directory wherever nothing is yet. -/
def makeDirectories (t : FileTree) (p : Place) : List String → FileTree
  | []      => t
  | c :: cs =>
    let q := p.next c
    makeDirectories (if (t.find? q).isSome then t else t.put q .directory) q cs

/-- Makes the directory at the end of a path. -/
def makeDirectory (path : String) : FileTree :=
  makeDirectories t (t.origin path) (Path.components path)

/-! ### Listing -/

/-- The path of an entry, which ends in a slash for a directory, with the size of a file. -/
def listEntry : Place × FileEntry → String × Option Nat
  | (p, .directory) => (String.intercalate "/" p ++ "/", none)
  | (p, .file text) => (String.intercalate "/" p, some text.utf8ByteSize)

/-- Everything in the working directory, ordered by the paths from there. -/
def listing : NameTable (Option Nat) :=
  .ofList (t.entries.filterMap fun e =>
    (t.workingDirectory.isPrefixOf? e.1).map fun p => listEntry (p, e.2))

end FileTree

end ShaderHeader
