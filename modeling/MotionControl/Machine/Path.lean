/-! Paths of files: their parts, and what keeps a file from being opened. -/
namespace MotionControl

/-- Why a file cannot be read or written. -/
inductive FileProblem where
  | notFound
  | isDirectory
  | nameTooLong
  | nulByte
  | notUtf8
  deriving DecidableEq, Repr

def FileProblem.message : FileProblem → String
  | notFound => "No such file or directory (os error 2)"
  | isDirectory => "Is a directory (os error 21)"
  | nameTooLong => "File name too long (os error 36)"
  | nulByte => "file name contained an unexpected NUL byte"
  | notUtf8 => "stream did not contain valid UTF-8"

namespace Path

/-- The names between the slashes of a path. -/
def parts (path : String) : List (List Char) := path.toList.splitOn '/'

/-- The last name of a path, unless it leads upward. -/
def fileName? (path : String) : Option (List Char) :=
  match ((parts path).filter fun part => part != [] && part != ['.']).getLast? with
  | some ['.', '.'] => none
  | name => name

/-- What follows the last point of a file name. A point at its start begins no extension. -/
def extension? (path : String) : Option String := do
  let name ← fileName? path
  let tail := (name.reverse.takeWhile (· != '.')).reverse
  if tail.length + 1 < name.length then some (String.ofList tail) else none

/-- A path below a directory. -/
def join (directory name : String) : String :=
  if directory.isEmpty then name
  else if directory.endsWith "/" then directory ++ name else directory ++ "/" ++ name

/-- The most bytes of a path, and of one name in it. -/
def maxLength : Nat := 4095
def maxNameLength : Nat := 255

/-- Whether a name stays among directories that exist: here, or the one above. -/
def isDirectoryName (part : List Char) : Bool := part == [] || part == ['.'] || part == ['.', '.']

/-- Why a name leads nowhere in a directory that does not have it. -/
def missing (name : List Char) : FileProblem :=
  if maxNameLength < (String.ofList name).utf8ByteSize then .nameTooLong else .notFound

/-- Why the text of a path is not that of a file anywhere. -/
def malformed? (path : String) : Option FileProblem :=
  if path.contains '\x00' then some .nulByte
  else if maxLength < path.utf8ByteSize then some .nameTooLong
  else none

/-- Why `name` cannot be read in an empty directory. -/
def unreadable (directory name : String) : FileProblem :=
  (malformed? (join directory name)).getD <|
    match (parts name).dropWhile isDirectoryName with
    | [] => .isDirectory
    | first :: _ => missing first

/-- Why `name` cannot be written in an empty directory, if it cannot. A slash after the last name
asks for a directory. -/
def unwritable? (directory name : String) : Option FileProblem :=
  malformed? (join directory name) <|>
    match (parts name).dropWhile isDirectoryName with
    | [] => some .isDirectory
    | [last] => if missing last = .nameTooLong then some .nameTooLong else none
    | first :: rest => if rest.all List.isEmpty then some .isDirectory else some (missing first)

end Path

end MotionControl
