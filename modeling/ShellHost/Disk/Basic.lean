import ShellHost.Disk.Path
import ShellHost.Text.Utf8

/-!
# The disk

A `Disk` holds files, directories and symbolic links, each at a `Place`, which is the list of names that leads there
from the root. A `Path` is resolved to a place by `resolve`: name by name, following at most forty links.

The operations are those of the system. They change at most one place, and say by a `DiskError` why they changed none.
-/

namespace ShellHost

namespace Disk

/-- The names that lead from the root to an entry. -/
abbrev Place := List String

/-- What stands at a place. -/
inductive Node where
  /-- A file with its bytes. -/
  | file (content : List UInt8)
  /-- A directory. -/
  | directory
  /-- A symbolic link with its target. -/
  | link (target : Path)
  deriving DecidableEq

end Disk

/-- The files, directories and links that there are. -/
structure Disk where
  /-- What stands at each place but the root; the first entry of a place counts. -/
  entries : List (Disk.Place × Disk.Node)
  /-- The directory that relative paths begin at. -/
  home : Disk.Place

namespace Disk

/-- What stands at a place. The root is a directory. -/
def node? (d : Disk) (p : Place) : Option Node := if p = [] then some .directory else d.entries.lookup p

/-- Puts a node at a place, in the stead of the one that was there. -/
def put (d : Disk) (p : Place) (n : Node) : Disk :=
  { d with entries := (p, n) :: d.entries.filter (·.1 != p) }

/-- Why the system refuses an operation. -/
inductive DiskError where
  /-- There is no such entry. -/
  | notFound
  /-- There is an entry already. -/
  | alreadyExists
  /-- A directory is needed and it is none. -/
  | notDirectory
  /-- A file is needed and it is a directory. -/
  | isDirectory
  /-- A name or a path is too long. -/
  | nameTooLong
  /-- A link leads to a link, too many times. -/
  | tooManyLinks
  /-- The path has a character that no path can have. -/
  | forbiddenCharacter
  deriving DecidableEq

/-- The error in words. -/
def DiskError.message : DiskError → String
  | notFound => "No such file or directory (os error 2)"
  | alreadyExists => "File exists (os error 17)"
  | notDirectory => "Not a directory (os error 20)"
  | isDirectory => "Is a directory (os error 21)"
  | nameTooLong => "File name too long (os error 36)"
  | tooManyLinks => "Too many levels of symbolic links (os error 40)"
  | forbiddenCharacter => "file name contained an unexpected NUL byte"

/-! ## Resolving paths -/

/-- The most links that are followed on one path. -/
def linkLimit : Nat := 40

/-- The most bytes of a name. -/
def nameLimit : Nat := 255

/-- The most bytes of a path. -/
def pathLimit : Nat := 4095

/-- The place that a path begins at. -/
def start (base : Place) (p : Path) : Place := if isAbsolute p then [] else base

/-- A place that a path leads to, and what stands there. If nothing does, it is an entry that could be made. -/
abbrev Target := Place × Option Node

/-- What a path is resolved for, which decides about its end. -/
inductive Purpose where
  /-- To use what is there: a link at the end is followed. -/
  | use
  /-- To write a file, which may have to be made: a link at the end is followed, and a name with a slash behind it is
  refused, since it cannot be that of a file. -/
  | writeFile
  /-- To change the entry: a link at the end is the entry itself. -/
  | changeEntry
  deriving DecidableEq

/-- Whether nothing but slashes follows a name, in the parts of the path behind it. -/
def onlySlashes (rest : List (List Char)) : Bool := !rest.isEmpty && rest.all List.isEmpty

/-- Walks from a directory along parts of a path. A link on the way is handed to `follow`, with its place, its target
and the parts behind it. -/
def walkParts (d : Disk) (purpose : Purpose) (follow : Place → Path → List (List Char) → Except DiskError Target) :
    Place → List (List Char) → Except DiskError Target
  | dir, [] => .ok (dir, some .directory)
  | dir, part :: rest =>
    match Component.ofPart? part with
    | some .up => walkParts d purpose follow dir.dropLast rest
    | some (.entry name) =>
      let place := dir ++ [name]
      if purpose = .writeFile ∧ onlySlashes rest then .error .isDirectory
      else if nameLimit < Utf8.size part then .error .nameTooLong
      else
        match d.node? place with
        | none => if rest.isEmpty then .ok (place, none) else .error .notFound
        | some .directory => walkParts d purpose follow place rest
        | some (.file c) => if rest.isEmpty then .ok (place, some (.file c)) else .error .notDirectory
        | some (.link target) =>
          if rest.isEmpty ∧ purpose = .changeEntry then .ok (place, some (.link target)) else follow dir target rest
    | _ => walkParts d purpose follow dir rest

/-- Walks along parts of a path, following so many links. -/
def walk (d : Disk) (purpose : Purpose) : (links : Nat) → Place → List (List Char) → Except DiskError Target
  | 0, dir, ps => walkParts d purpose (fun _ _ _ => .error .tooManyLinks) dir ps
  | links + 1, dir, ps =>
    walkParts d purpose
      (fun dir target rest => walk d purpose links (start dir target) (parts target ++ rest)) dir ps

/-- The place that a path leads to. -/
def resolve (d : Disk) (purpose : Purpose) (p : Path) : Except DiskError Target :=
  let cs := p.toList
  if cs.contains '\x00' then .error .forbiddenCharacter
  else if cs.isEmpty then .error .notFound
  else if pathLimit < Utf8.size cs then .error .nameTooLong
  else walk d purpose linkLimit (start d.home p) (parts p)

/-- What a path leads to, through links. -/
def find? (d : Disk) (p : Path) : Except DiskError Node :=
  match d.resolve .use p with
  | .error e => .error e
  | .ok (_, none) => .error .notFound
  | .ok (_, some n) => .ok n

/-- Whether a path leads to something. -/
def exists? (d : Disk) (p : Path) : Bool :=
  match d.find? p with
  | .ok _ => true
  | .error _ => false

/-- Whether a path leads to a directory. -/
def isDirectory (d : Disk) (p : Path) : Bool :=
  match d.find? p with
  | .ok .directory => true
  | _ => false

/-! ## Operations -/

/-- The bytes of the file that a path leads to. -/
def read (d : Disk) (p : Path) : Except DiskError (List UInt8) :=
  match d.find? p with
  | .error e => .error e
  | .ok (.file c) => .ok c
  | .ok _ => .error .isDirectory

/-- The disk after the bytes of a file have been replaced, or a new file has been made. -/
def write (d : Disk) (p : Path) (content : List UInt8) : Except DiskError Disk :=
  match d.resolve .writeFile p with
  | .error e => .error e
  | .ok (place, none) => .ok (d.put place (.file content))
  | .ok (place, some (.file _)) => .ok (d.put place (.file content))
  | .ok _ => .error .isDirectory

/-- A path without the slashes at its end. -/
def withoutEndSlashes (p : Path) : Path :=
  match p.toList.reverse.dropWhile (· == '/') with
  | [] => p
  | cs => String.ofList cs.reverse

/-- The disk after a directory has been made. -/
def makeDirectory (d : Disk) (p : Path) : Except DiskError Disk :=
  match d.resolve .changeEntry (withoutEndSlashes p) with
  | .error e => .error e
  | .ok (place, none) => .ok (d.put place .directory)
  | .ok (_, some _) => .error .alreadyExists

/-- A path, the directory it is in, and so on up to the first one. -/
def ancestors : Nat → Path → List Path
  | 0, p => [p]
  | fuel + 1, p =>
    match parent? p with
    | none => [p]
    | some above => p :: ancestors fuel above

/-- Makes the first of the directories, and before it those above it that do not exist. The directories that were made
stay, even if one of them cannot be made. -/
def makeFirst (d : Disk) : List Path → Except DiskError Unit × Disk
  | [] => (.ok (), d)
  | p :: above =>
    if p = "" then (.ok (), d)
    else
      match d.makeDirectory p with
      | .ok d' => (.ok (), d')
      | .error .notFound =>
        match makeFirst d above with
        | (.error e, d') => (.error e, d')
        | (.ok (), d') =>
          match d'.makeDirectory p with
          | .ok d'' => (.ok (), d'')
          | .error e => if d'.isDirectory p then (.ok (), d') else (.error e, d')
      | .error e => if d.isDirectory p then (.ok (), d) else (.error e, d)

/-- Makes a directory and those above it, as far as they do not exist. -/
def makeDirectories (d : Disk) (p : Path) : Except DiskError Unit × Disk := makeFirst d (ancestors p.length p)

/-- The disk after a link has been made. -/
def makeLink (d : Disk) (p target : Path) : Except DiskError Disk :=
  match d.resolve .changeEntry p with
  | .error e => .error e
  | .ok (place, none) => .ok (d.put place (.link target))
  | .ok (_, some _) => .error .alreadyExists

/-- The disk without an entry and all that is below it. -/
def remove (d : Disk) (p : Path) : Except DiskError Disk :=
  match d.resolve .changeEntry p with
  | .error e => .error e
  | .ok (_, none) => .error .notFound
  | .ok (place, some _) => .ok { d with entries := d.entries.filter fun e => !place.isPrefixOf e.1 }

/-- The files below a place, with the names that lead there from it. -/
def filesBelow (d : Disk) (p : Place) : List (Place × List UInt8) :=
  d.entries.filterMap fun e =>
    match e.2 with
    | .file c => if p.isPrefixOf e.1 then some (e.1.drop p.length, c) else none
    | _ => none

end Disk

end ShellHost
