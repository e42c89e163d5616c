/-!
# Paths

A path is a text whose components are separated by slashes. Empty components and `.` mean nothing,
so they are left out of the `parts`.
-/

namespace ShaderHeader

namespace Path

/-- The components of a path, less the empty ones. -/
def components (path : String) : List String :=
  ((path.toList.splitOn '/').filter (· ≠ [])).map String.ofList

/-- Whether a path starts at the root. -/
def isAbsolute (path : String) : Bool :=
  path.toList.head? = some '/'

/-- Whether only a directory can have the path. -/
def endsInSlash (path : String) : Bool :=
  path.toList.getLast? = some '/'

/-- The components that lead somewhere. -/
def parts (path : String) : List String :=
  (components path).filter (· ≠ ".")

/-- The components of the directory that a path lies in, if it has parts. -/
def directory (path : String) : List String :=
  (parts path).dropLast

/-- The name at the end of a path, unless the path ends in `..` or has no parts. -/
def fileName? (path : String) : Option String :=
  (parts path).getLast?.filter (· ≠ "..")

end Path

end ShaderHeader
