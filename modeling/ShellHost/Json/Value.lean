import ShellHost.Number.Double

/-!
# JSON values

A value with its numbers kept as they are read: a whole number in the range of 64-bit words, signed or not, or a
finite double. An object is a list of members. `Value.Sorted` says that keys ascend strictly in every object; every
value that is read from a text is so, while a message that is about to be written lists its members in the order in
which they are to appear. `Value.sort` brings members of any order into the sorted form, where the last one of a key
stays.
-/

namespace ShellHost.Json

/-- A whole number of JSON: it fits a 64-bit word, signed or unsigned. -/
structure Whole where
  /-- The number. -/
  val : Int
  /-- It is not below the least signed word. -/
  lower : -0x8000000000000000 ≤ val
  /-- It is not above the greatest unsigned word. -/
  upper : val < 0x10000000000000000
  deriving DecidableEq

/-- The whole number of an unsigned word. -/
def Whole.ofUInt64 (n : UInt64) : Whole :=
  ⟨n.toNat, by omega, by have := n.toNat_lt; omega⟩

/-- The whole number with this value, if it is in range. -/
def Whole.ofInt? (v : Int) : Option Whole :=
  if h : -0x8000000000000000 ≤ v ∧ v < 0x10000000000000000 then some ⟨v, h.1, h.2⟩ else none

instance : Inhabited Whole := ⟨0, by decide, by decide⟩

/-- A number of JSON. -/
inductive Number where
  /-- A whole number, kept exactly. -/
  | whole (n : Whole)
  /-- Any other number, rounded. -/
  | float (x : Double)
  deriving DecidableEq

/-- A JSON value. -/
inductive Value where
  /-- The word `null`. -/
  | null
  /-- The words `true` and `false`. -/
  | bool (b : Bool)
  /-- A number. -/
  | number (n : Number)
  /-- A text. -/
  | string (s : String)
  /-- Values in order. -/
  | array (items : List Value)
  /-- Values by key. -/
  | object (members : List (String × Value))
  deriving Inhabited

namespace Value

/-- The whole number `n` as a value. -/
def ofUInt64 (n : UInt64) : Value := .number (.whole (.ofUInt64 n))

/-- The kind of a value, in one word. -/
def kind : Value → String
  | null => "null"
  | bool _ => "bool"
  | number _ => "number"
  | string _ => "string"
  | array _ => "array"
  | object _ => "object"

/-- The value of a key, if the value is an object that has it. -/
def get? (v : Value) (key : String) : Option Value :=
  match v with
  | object members => members.lookup key
  | _ => none

/-- The unsigned word that a value is, if it is one. -/
def toUInt64? : Value → Option UInt64
  | number (.whole n) => if 0 ≤ n.val then some n.val.toNat.toUInt64 else none
  | _ => none

end Value

/-- Adds a member to members whose keys descend. A member of the same key gives way to it. -/
def insertDescending (key : String) (value : Value) : List (String × Value) → List (String × Value)
  | [] => [(key, value)]
  | m :: rest =>
    if m.1 < key then (key, value) :: m :: rest
    else if m.1 = key then (key, value) :: rest
    else m :: insertDescending key value rest

/-- Members in ascending order of their keys; of several with one key the last. -/
def sortMembers (members : List (String × Value)) : List (String × Value) :=
  (members.foldl (fun out m => insertDescending m.1 m.2 out) []).reverse

mutual

/-- The value with the members of every object in ascending order of their keys. -/
def Value.sort : Value → Value
  | .null => .null
  | .bool b => .bool b
  | .number n => .number n
  | .string s => .string s
  | .array items => .array (sortItems items)
  | .object members => .object (sortMembers (sortValues members))

/-- `Value.sort` of every item. -/
def sortItems : List Value → List Value
  | [] => []
  | v :: rest => v.sort :: sortItems rest

/-- `Value.sort` of every member's value. -/
def sortValues : List (String × Value) → List (String × Value)
  | [] => []
  | m :: rest => (m.1, m.2.sort) :: sortValues rest

end

mutual

/-- The keys of every object ascend strictly. -/
def Value.Sorted : Value → Prop
  | .null => True
  | .bool _ => True
  | .number _ => True
  | .string _ => True
  | .array items => AllSorted items
  | .object members => (members.map Prod.fst).Pairwise (· < ·) ∧ EachSorted members

/-- Every item is sorted. -/
def AllSorted : List Value → Prop
  | [] => True
  | v :: rest => v.Sorted ∧ AllSorted rest

/-- Every member's value is sorted. -/
def EachSorted : List (String × Value) → Prop
  | [] => True
  | m :: rest => m.2.Sorted ∧ EachSorted rest

end

end ShellHost.Json
