-- Finding the nearest configuration file, at a folder or above it.
import ComponentLint.File.Tree

namespace ComponentLint

/-- The names of configuration files, the preferred one first. -/
def configNames : List String := [".viewlint.yml", "viewlint.yml", ".viewlint.yaml"]

namespace Workspace

/-- The names that parts lead to from a place, both last one first; two dots lead back up. -/
def collapse : List String → List String → List String
  | place, [] => place
  | place, part :: rest =>
    if part = ".." then collapse place.tail rest else collapse (part :: place) rest

/-- The names that a path leads to from the top, last one first. -/
def resolve (w : Workspace) (p : Path) : List String :=
  collapse (if p.isAbsolute then [] else w.here.reverse) p.parts

/-- The configuration file in the folder that names lead to, last one first. -/
def configIn? (w : Workspace) (folder : List String) : Option Path :=
  (configNames.find? fun name => w.hasFile (name :: folder).reverse).map fun name =>
    ⟨"/", (name :: folder).reverse⟩

/-- The configuration file in a folder or in the nearest one above it. -/
def configAbove? (w : Workspace) : List String → Option Path
  | [] => w.configIn? []
  | name :: above => (w.configIn? (name :: above)).or (w.configAbove? above)

/-- The nearest configuration file at a path or above it. A path to a file stands for its folder. -/
def discover (w : Workspace) (start : Path) : Option Path :=
  let place := w.resolve start
  w.configAbove? (if w.hasFile place.reverse then place.tail else place)

end Workspace

end ComponentLint
