import AssessmentPlans.Decimal.Binary64

/-! JSON values. An object is a list of members; `setMember` keeps such a list
in ascending order of its keys, each key once. -/
namespace AssessmentPlans.Json
open Decimal (Binary64)

inductive Number where
  | integer (n : Int)
  | real (x : Binary64)
  deriving DecidableEq

inductive Value where
  | null
  | boolean (b : Bool)
  | number (n : Number)
  | text (s : String)
  | array (items : List Value)
  | object (members : List (String × Value))

instance : Inhabited Value := ⟨.null⟩

/-- Puts a member in its place by key; a member with the same key gives way. -/
def setMember {α} (key : String) (value : α) : List (String × α) → List (String × α)
  | [] => [(key, value)]
  | (k, v) :: rest =>
    if key < k then (key, value) :: (k, v) :: rest
    else if key = k then (key, value) :: rest
    else (k, v) :: setMember key value rest

namespace Value

def natural (n : Nat) : Value := .number (.integer n)

def get? (key : String) : Value → Option Value
  | .object members => (members.find? (·.1 == key)).map (·.2)
  | _ => none

def asText? : Value → Option String
  | .text s => some s
  | _ => none

/-- The items of an array; any other value has none. -/
def items : Value → List Value
  | .array vs => vs
  | _ => []

/-- The members of an object; any other value has none. -/
def members : Value → List (String × Value)
  | .object ms => ms
  | _ => []

def getText? (key : String) (v : Value) : Option String := (v.get? key).bind asText?

def getText (key : String) (v : Value) : String := (v.getText? key).getD ""

def getItems? (key : String) (v : Value) : Option (List Value) := (v.get? key).map items

def getItems (key : String) (v : Value) : List Value := (v.getItems? key).getD []

/-- The members whose keys are not among the given ones. -/
def besides (keys : List String) (v : Value) : List (String × Value) :=
  v.members.filter fun m => !keys.contains m.1

end Value

/-- A member that is written only when there is a value for it. -/
def optionalMember (key : String) (value : Option Value) : List (String × Value) :=
  value.toList.map (key, ·)

end AssessmentPlans.Json
