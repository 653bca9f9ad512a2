import ShellHost.Message.CallError

/-!
# Actions

What content can ask the host to do. An action has a name on the wire, and requests and responses of its own: the
requests carry nothing as yet, so they are empty objects and nothing else.
-/

namespace ShellHost

open Json

/-- An action of the host. -/
inductive Action where
  /-- Begins a project. -/
  | addNewProject
  /-- Reads the settings. -/
  | loadConfig
  deriving DecidableEq, Repr

namespace Action

/-- Every action. -/
def all : List Action := [addNewProject, loadConfig]

/-- The name on the wire. -/
def name : Action → String
  | addNewProject => "addNewProject"
  | loadConfig => "loadConfig"

/-- The action with this name. -/
def ofName (name : String) : Except CallError Action :=
  match all.find? (·.name == name) with
  | some a => .ok a
  | none => .error (.unknownAction name)

/-- The action as JSON. -/
def toValue (a : Action) : Value := .string a.name

/-- Reads the name of an action. -/
def decoder : Decoder Action := enumeration (all.map fun a => .unit a.name a)

/-- An object without members, which an objection calls `name`. -/
def emptyRecord (name : String) : Record Unit Unit := ⟨name, [], (), .ok, .refused, true⟩

/-- Reads the request of an action: an object without members. -/
def request : Action → Decoder Unit
  | addNewProject => (emptyRecord "struct AddNewProjectRequest").decoder
  | loadConfig => (emptyRecord "struct LoadConfigRequest").decoder

/-- The request of an action as JSON. -/
def requestValue (_ : Action) : Value := .object []

/-- What an action answers. -/
def Response : Action → Type
  | addNewProject => Unit
  | loadConfig => Value

/-- The answer of an action as JSON. -/
def responseValue : (a : Action) → a.Response → Value
  | addNewProject, _ => .object []
  | loadConfig, v => v

/-- Reads the answer of an action. -/
def response : (a : Action) → Decoder a.Response
  | addNewProject => (emptyRecord "struct AddNewProjectResponse").decoder
  | loadConfig => value

end Action

end ShellHost
