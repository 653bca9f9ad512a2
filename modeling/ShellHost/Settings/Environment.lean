import ShellHost.Settings.Basic
import ShellHost.Text.Quoted

/-!
# Names of environments

Every environment has settings of its own, in a directory that bears its name. So a name has to be a plain one.
-/

namespace ShellHost

/-- The environment that is meant if none is named. -/
def defaultEnvironment : String := "development"

/-- The characters of names of environments: letters and digits of ASCII, and three marks. -/
def isEnvironmentChar (c : Char) : Bool := c.isAlphanum || c == '-' || c == '_' || c == '.'

/-- Whether a text is the name of an environment. -/
def isEnvironmentName (s : String) : Bool :=
  s != "" && s != "." && s != ".." && s.toList.all isEnvironmentChar

/-- Objects to a text that is no name of an environment. -/
def checkEnvironment (s : String) : Except SettingsError Unit :=
  if isEnvironmentName s then .ok () else .error (.invalid ("invalid environment name: " ++ Text.quoted s))

end ShellHost
