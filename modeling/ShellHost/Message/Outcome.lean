import ShellHost.Message.CallError

/-!
# Outcomes of calls

An `Outcome` is what a call comes to: a JSON value, or a `CallError`. As JSON it is an object with the one key `ok`
or `error`.
-/

namespace ShellHost

open Json

/-- What a call comes to. -/
inductive Outcome where
  /-- A result. -/
  | ok (v : Value)
  /-- An error. -/
  | error (e : CallError)

namespace Outcome

/-- Whether the call has a result. -/
def isOk : Outcome → Bool
  | ok _ => true
  | error _ => false

/-- The outcome as a result or an error. -/
def toExcept : Outcome → Except CallError Value
  | ok v => .ok v
  | error e => .error e

/-- The outcome of a result or an error. -/
def ofExcept : Except CallError Value → Outcome
  | .ok v => ok v
  | .error e => error e

/-- The outcome as JSON. -/
def toValue : Outcome → Value
  | ok v => .object [("ok", v)]
  | error e => .object [("error", e.toValue)]

/-- Reads an outcome. -/
def decoder : Decoder Outcome :=
  enumeration [.newtype "ok" (value.map ok), .newtype "error" (CallError.decoder.map error)]

end Outcome

end ShellHost
