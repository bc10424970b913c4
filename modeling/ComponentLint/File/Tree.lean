-- A file system as a tree of folders and files, with a working folder that
-- relative paths start from.
import ComponentLint.File.Path
import ComponentLint.Text.Quoted

namespace ComponentLint

open ComponentLint.Text

/-- A file with its bytes, or a folder. -/
inductive FileTree where
  | file (bytes : List UInt8)
  | folder (entries : List (String × FileTree))

/-- Why a path leads to no file. -/
inductive FileFault where
  | missing
  | notFolder
  | isFolder
  /-- A name, or the whole path, is longer than the system allows. -/
  | nameTooLong
  deriving DecidableEq, Repr

/-- The wording of a fault at a path. -/
def FileFault.message (path : Path) : FileFault → String
  | missing => "[Errno 2] No such file or directory: " ++ quoted path.toText
  | notFolder => "[Errno 20] Not a directory: " ++ quoted path.toText
  | isFolder => "[Errno 21] Is a directory: " ++ quoted path.toText
  | nameTooLong => "[Errno 36] File name too long: " ++ quoted path.toText

namespace FileTree

/-- The entry of a folder with a given name. -/
def entry? (name : String) : FileTree → Option FileTree
  | folder entries => entries.lookup name
  | file _ => none

/-- What names lead to, from folder to folder. -/
def find? : FileTree → List String → Option FileTree
  | t, [] => some t
  | t, name :: rest => (t.entry? name).bind fun u => find? u rest

/-- A folder with an entry replaced or added. -/
def setEntry (t : FileTree) (name : String) (new : FileTree) : FileTree :=
  match t with
  | folder entries => folder ((name, new) :: entries.filter fun e => e.1 != name)
  | file _ => folder [(name, new)]

/-- A tree with something put where names lead; folders on the way are made. -/
def insert (t : FileTree) : List String → FileTree → FileTree
  | [], new => new
  | name :: rest, new => t.setEntry name (insert ((t.entry? name).getD (folder [])) rest new)

end FileTree

/-- A file system and the names that lead to the working folder. -/
structure Workspace where
  tree : FileTree
  here : List String

namespace Workspace

/-- The most bytes that a name may have. -/
def maxName : Nat := 255

/-- The most bytes that a path may have. -/
def maxPath : Nat := 4095

/-- Follows the parts of a path from a place, given by the names that lead to it, last one first.
Two dots lead back up. -/
def follow (w : Workspace) : List String → List String → Except FileFault FileTree
  | place, [] => (w.tree.find? place.reverse).elim (.error .missing) .ok
  | place, part :: rest =>
    match w.tree.find? place.reverse with
    | none => .error .missing
    | some (.file _) => .error .notFolder
    | some (.folder _) =>
      if part = ".." then follow w place.tail rest
      else if maxName < part.utf8ByteSize then .error .nameTooLong
      else follow w (part :: place) rest

/-- What a path leads to. -/
def lookup (w : Workspace) (p : Path) : Except FileFault FileTree :=
  if maxPath < p.toText.utf8ByteSize then .error .nameTooLong
  else w.follow (if p.isAbsolute then [] else w.here.reverse) p.parts

/-- The bytes of the file that a path leads to. -/
def read (w : Workspace) (p : Path) : Except FileFault (List UInt8) := do
  match ← w.lookup p with
  | .file bytes => return bytes
  | .folder _ => throw .isFolder

/-- Whether names lead to a file. -/
def hasFile (w : Workspace) (names : List String) : Bool :=
  match w.tree.find? names with
  | some (.file _) => true
  | _ => false

end Workspace

end ComponentLint
