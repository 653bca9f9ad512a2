import ShellHost.Json.Record

/-!
# File dialogs

What content can say about the dialog that it wants to be opened. Every part may be left out. A path is held as the
bytes that the system uses; in JSON it is a text, so a path that is not UTF-8 cannot be written (`toValue?`).
-/

namespace ShellHost

open Json

/-- A path as the system knows it: bytes that need not be a text. -/
abbrev RawPath := List UInt8

/-- What a file dialog can be told to do. -/
inductive DialogProperty where
  /-- Files can be chosen. -/
  | openFile
  /-- Directories can be chosen. -/
  | openDirectory
  /-- More than one can be chosen. -/
  | multiSelections
  /-- Hidden files are shown. -/
  | showHiddenFiles
  deriving DecidableEq, Repr

namespace DialogProperty

/-- Every property. -/
def all : List DialogProperty := [openFile, openDirectory, multiSelections, showHiddenFiles]

/-- The name on the wire. -/
def name : DialogProperty → String
  | openFile => "openFile"
  | openDirectory => "openDirectory"
  | multiSelections => "multiSelections"
  | showHiddenFiles => "showHiddenFiles"

/-- The property as JSON. -/
def toValue (p : DialogProperty) : Value := .string p.name

/-- Reads the name of a property. -/
def decoder : Decoder DialogProperty := enumeration (all.map fun p => .unit p.name p)

end DialogProperty

/-- A kind of files to choose from. -/
structure FileFilter where
  /-- What the kind is called. -/
  name : String
  /-- The extensions of its files. -/
  extensions : List String
  deriving DecidableEq

namespace FileFilter

/-- The filter as JSON. -/
def toValue (f : FileFilter) : Value :=
  .object [("name", .string f.name), ("extensions", .array (f.extensions.map .string))]

/-- The members of a filter that have been read. -/
structure Draft where
  /-- The member `name`. -/
  name : Option String := none
  /-- The member `extensions`. -/
  extensions : Option (List String) := none

/-- The members of a filter. -/
def record : Record Draft FileFilter where
  name := "struct FileFilter"
  fields := [
    field "name" Draft.name (fun a d => { d with name := some a }) string,
    field "extensions" Draft.extensions (fun a d => { d with extensions := some a }) (list string)]
  empty := {}
  finish d := do
    return ⟨← required "name" d.name, ← required "extensions" d.extensions⟩
  others := .ignored
  fromArray := true

/-- Reads a filter. -/
def decoder : Decoder FileFilter := record.decoder

end FileFilter

/-- A path as a text in JSON. -/
def pathDecoder : Decoder RawPath := (Json.text "path string").map Utf8.encodeString

/-- The dialog that is asked for. -/
structure DialogRequest where
  /-- The title of the window. -/
  title : Option String := none
  /-- Where it is opened. -/
  defaultPath : Option RawPath := none
  /-- What it is told to do. -/
  properties : List DialogProperty := []
  /-- The kinds of files to choose from. -/
  filters : List FileFilter := []
  deriving DecidableEq

namespace DialogRequest

/-- The request as JSON; `none` if the path is no text. -/
def toValue? (r : DialogRequest) : Option Value := do
  let path ←
    match r.defaultPath with
    | none => some []
    | some bytes =>
      match Utf8.decode bytes with
      | .ok cs => some [("defaultPath", .string (String.ofList cs))]
      | .error _ => none
  let title := (r.title.map fun s => ("title", Value.string s)).toList
  return .object (title ++ path ++
    [("properties", .array (r.properties.map DialogProperty.toValue)),
      ("filters", .array (r.filters.map FileFilter.toValue))])

/-- Why a request cannot be written. -/
def unwritable : String := "path contains invalid UTF-8 characters"

/-- The members of a request that have been read. -/
structure Draft where
  /-- The member `title`. -/
  title : Option (Option String) := none
  /-- The member `defaultPath`. -/
  defaultPath : Option (Option RawPath) := none
  /-- The member `properties`. -/
  properties : Option (List DialogProperty) := none
  /-- The member `filters`. -/
  filters : Option (List FileFilter) := none

/-- The members of a request. Each may be missing. -/
def record : Record Draft DialogRequest where
  name := "struct OpenDialogOptions"
  fields := [
    field "title" Draft.title (fun a d => { d with title := some a }) (option string),
    field "defaultPath" Draft.defaultPath (fun a d => { d with defaultPath := some a }) (option pathDecoder),
    field "properties" Draft.properties (fun a d => { d with properties := some a })
      (list DialogProperty.decoder),
    field "filters" Draft.filters (fun a d => { d with filters := some a }) (list FileFilter.decoder)]
  empty := {}
  finish d := .ok ⟨d.title.getD none, d.defaultPath.getD none, d.properties.getD [], d.filters.getD []⟩
  others := .ignored
  fromArray := true

/-- Reads a request. -/
def decoder : Decoder DialogRequest := record.decoder

end DialogRequest

end ShellHost
