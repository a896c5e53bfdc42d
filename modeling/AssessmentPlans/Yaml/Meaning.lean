import AssessmentPlans.Decimal.Shortest
import AssessmentPlans.Text.Printable
import AssessmentPlans.Yaml.Event
import AssessmentPlans.Yaml.Numeral

/-! What a scalar means where its type is free, and how messages name it. -/
namespace AssessmentPlans.Yaml

inductive Meaning where
  | null
  | boolean (b : Bool)
  | integer (n : Int)
  | real (x : Real)
  | text (s : String)
  deriving DecidableEq

def isNullWord (s : String) : Bool := ["null", "Null", "NULL", "~"].contains s

def boolean? (s : String) : Option Bool :=
  if ["true", "True", "TRUE"].contains s then some true
  else if ["false", "False", "FALSE"].contains s then some false
  else none

/-- What a plain scalar means. -/
def Meaning.ofPlain (s : String) : Meaning :=
  if s = "" || isNullWord s then .null
  else
    let cs := s.toList
    match boolean? s, integer? cs with
    | some b, _ => .boolean b
    | none, some n => .integer n
    | none, none =>
      if isPadded cs then .text s
      else match real? cs with
        | some x => .real x
        | none => .text s

/-- A scalar that does not have the form of its tag. -/
structure TagFault where
  text : String
  expected : String
  deriving DecidableEq

def TagFault.message (f : TagFault) : String :=
  "invalid value: string " ++ Text.literal f.text ++ ", expected " ++ f.expected

/-- The beginning of the tags that every document knows. -/
def commonTag (name : String) : String := "tag:yaml.org,2002:" ++ name

/-- What a scalar means by its tag, or by its form if it has none of its own. -/
def Scalar.meaning (s : Scalar) : Except TagFault Meaning :=
  let form := if s.plain then Meaning.ofPlain s.text else .text s.text
  let demand (expected : String) (meaning : Option Meaning) : Except TagFault Meaning :=
    match meaning with
    | some m => .ok m
    | none => .error ⟨s.text, expected⟩
  match s.tag with
  | none => .ok form
  | some tag =>
    if tag = commonTag "bool" then demand "a boolean" ((boolean? s.text).map .boolean)
    else if tag = commonTag "int" then demand "an integer" ((integer? s.text.toList).map .integer)
    else if tag = commonTag "float" then demand "a float" ((real? s.text.toList).map .real)
    else if tag = commonTag "null" then demand "null" (if isNullWord s.text then some .null else none)
    else if tag.toList.head? = some '!' then .ok form
    else .ok (.text s.text)

def Real.name : Real → String
  | .finite x => String.ofList (x.chars true)
  | .infinity negative => if negative then "-inf" else "inf"
  | .undefined => "NaN"

/-- How a message names an integer; one beyond 64 bits comes with its width. -/
def integerName (n : Int) : String :=
  let name := s!"integer `{n}`"
  if (Nat.pow 2 64 : Int) ≤ n then name ++ " as u128"
  else if n < -(Nat.pow 2 63 : Int) then name ++ " as i128"
  else name

def Meaning.name : Meaning → String
  | .null => "unit value"
  | .boolean b => s!"boolean `{b}`"
  | .integer n => integerName n
  | .real x => "floating point `" ++ x.name ++ "`"
  | .text s => "string " ++ Text.literal s

/-- What is said about a node where something else is expected. -/
def Event.mismatch (expected : String) : Event → String
  | .scalar s =>
    match s.meaning with
    | .ok m => "invalid type: " ++ m.name ++ ", expected " ++ expected
    | .error fault => fault.message
  | .mappingStart => "invalid type: map, expected " ++ expected
  | _ => "invalid type: sequence, expected " ++ expected

end AssessmentPlans.Yaml
