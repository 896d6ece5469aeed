/-!
# File paths

Paths with slashes, taken apart and put together as text, without looking at a file system.

## Main definitions

* `Path.clean`: the shortest path that names the same file.
* `Path.join`, `Path.parent`: a file in a directory, and the directory of a file.
* `Path.ancestors`: a directory and all those above it.
-/

namespace BytecodeHost

namespace Path

/-- Whether a path starts at the root. -/
def isAbsolute (path : String) : Bool :=
  path.startsWith "/"

/-- The names in a path, empty ones and `.` left out. -/
def names (path : String) : List String :=
  (path.splitOn "/").filter fun s => s ≠ "" ∧ s ≠ "."

/-- Adds a name to names in reverse; `..` takes one away, and stays only before all others in a
path that does not start at the root. -/
def descend (rooted : Bool) (reversed : List String) (name : String) : List String :=
  if name = ".." then
    match reversed with
    | [] => if rooted then [] else [".."]
    | ".." :: _ => name :: reversed
    | _ :: rest => rest
  else name :: reversed

/-- The shortest path that names the same file, by its text alone. -/
def clean (path : String) : String :=
  let rooted := isAbsolute path
  let kept := ((names path).foldl (descend rooted) []).reverse
  let body := String.intercalate "/" kept
  if rooted then "/" ++ body else if body = "" then "." else body

/-- Paths joined by slashes; empty ones are left out. -/
def join (parts : List String) : String :=
  match parts.filter (· ≠ "") with
  | [] => ""
  | kept => clean (String.intercalate "/" kept)

/-- The directory that a path lies in. -/
def parent (path : String) : String :=
  let upToSlash := path.toList.reverse.dropWhile (· ≠ '/')
  clean (String.ofList upToSlash.reverse)

/-- The path from the root that a path means in a directory. -/
def absolute (directory path : String) : String :=
  if isAbsolute path then clean path else join [directory, path]

/-- The directories with the given names, the last one first, up to the root. -/
def upwards : List String → List String
  | [] => ["/"]
  | name :: above => ("/" ++ "/".intercalate (name :: above).reverse) :: upwards above

/-- A directory and all those above it; the path starts at the root. -/
def ancestors (directory : String) : List String :=
  upwards (names (clean directory)).reverse

end Path

end BytecodeHost
