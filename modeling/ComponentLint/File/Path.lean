-- Paths as texts: parts between slashes, where empty parts and single dots
-- do not count.
import ComponentLint.Text.Basic

namespace ComponentLint

open ComponentLint.Text

/-- A path: the slashes it starts with, and its parts. -/
structure Path where
  root : String
  parts : List String
  deriving DecidableEq, Repr

namespace Path

/-- The slashes that a path keeps in front: two, or else one. -/
def rootOf : List Char → String
  | ['/', '/'] => "//"
  | '/' :: '/' :: c :: _ => if c = '/' then "/" else "//"
  | '/' :: _ => "/"
  | _ => ""

/-- The path that a text spells. -/
def ofText (s : String) : Path where
  root := rootOf s.toList
  parts := ((List.splitOn '/' s.toList).map String.ofList).filter fun p => p != "" && p != "."

/-- The text of a path; a single dot when it has no parts. -/
def toText (p : Path) : String :=
  if p.root.isEmpty && p.parts.isEmpty then "." else p.root ++ "/".intercalate p.parts

/-- Whether a path starts at the top of the file system. -/
def isAbsolute (p : Path) : Bool := !p.root.isEmpty

/-- Whether a path holds a null character, which no name has. -/
def hasNull (p : Path) : Bool := p.parts.any fun part => part.toList.contains '\x00'

end Path

end ComponentLint
