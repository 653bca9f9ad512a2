/-!
# Paths

A path is a text with slashes. `join` puts a name behind a directory, `parent?` takes the last component off again,
and `components` is what a path says: the empty parts and the single dots between slashes say nothing.
-/

namespace ShellHost.Disk

/-- A path, as it is written. -/
abbrev Path := String

/-- One component of a path. -/
inductive Component where
  /-- The root, where an absolute path begins. -/
  | root
  /-- The directory itself, where a path begins with a dot. -/
  | here
  /-- The directory above. -/
  | up
  /-- An entry of the directory. -/
  | entry (name : String)
  deriving DecidableEq

/-- Whether a path begins at the root. -/
def isAbsolute (p : Path) : Bool := p.toList.head? == some '/'

/-- Puts a path behind a directory, unless it is absolute. -/
def join (dir name : Path) : Path :=
  if isAbsolute name then name
  else if dir == "" || dir.toList.getLast? == some '/' then dir ++ name
  else dir ++ "/" ++ name

/-- The parts between slashes. -/
def parts (p : Path) : List (List Char) := p.toList.splitOn '/'

/-- The component that a part is, unless it says nothing. -/
def Component.ofPart? (part : List Char) : Option Component :=
  if part = [] ∨ part = ['.'] then none
  else if part = ['.', '.'] then some .up
  else some (.entry (String.ofList part))

/-- The components of a path. -/
def components (p : Path) : List Component :=
  let ps := parts p
  let named := ps.filterMap Component.ofPart?
  if isAbsolute p then .root :: named else if ps.head? = some ['.'] then .here :: named else named

/-- Takes parts that say nothing off the end of a path, which is written backwards here. The dot that a relative path
begins with stays, and so does the slash of the root. -/
def trimEnd : List Char → List Char
  | '/' :: [] => ['/']
  | '/' :: rest => trimEnd rest
  | '.' :: '/' :: [] => ['/']
  | '.' :: '/' :: rest => trimEnd rest
  | cs => cs

/-- The path of the directory that the path is an entry of; `none` for the root and for no path at all. -/
def parent? (p : Path) : Option Path :=
  match (components p).getLast? with
  | none => none
  | some .root => none
  | some _ =>
    let cs := trimEnd p.toList.reverse
    let above := cs.dropWhile (· != '/')
    some (String.ofList (trimEnd above).reverse)

end ShellHost.Disk
