import AssessmentPlans.Json.Value
import AssessmentPlans.Json.Fault
import AssessmentPlans.Decimal.Shortest
import AssessmentPlans.Text.Printable

/-! What a JSON text says up to its first fault. A reader looks at a draft for
what it expects, so a wrong type is met before a fault that stands further on.
The same draft can be read as a value or passed over, which is more lenient. -/
namespace AssessmentPlans.Json

/-- The first fault of a text, as three readers meet it: one that wants the next
value, one that passes over it, and one that wants the list to end here. -/
structure Stop where
  reading : Fault
  skipping : Fault
  ending : Fault
  deriving DecidableEq

def Stop.hard (f : Fault) : Stop := ⟨f, f, .trailingCharacters⟩

/-- A numeral beyond the range of its type has no number. A text with an escape
that stands for no character can still be passed over. `surplus` is met by a
reader that has enough while items remain. -/
inductive Draft where
  | null
  | boolean (b : Bool)
  | numeral (n : Option Number)
  | text (s : Except Fault String)
  | array (items : List Draft) (close : Option Stop) (surplus : Fault)
  | object (members : List (Except Fault String × Draft)) (close : Option Stop)
  | broken (stop : Stop)

instance : Inhabited Draft := ⟨.null⟩

def Number.chars (positional : Bool) : Number → List Char
  | .integer n => (toString n).toList
  | .real x => x.chars positional

namespace Draft

/-- Fails where the text breaks off or goes wrong instead of closing. -/
def closing (close : Option Stop) : Except Fault Unit :=
  match close with
  | none => .ok ()
  | some stop => .error stop.reading

mutual

/-- The value, with room for that many containers inside each other. Of members
with one key the last is kept. -/
def value (room : Nat) : Draft → Except Fault Value
  | .null => .ok .null
  | .boolean b => .ok (.boolean b)
  | .numeral none => .error .numberOutOfRange
  | .numeral (some n) => .ok (.number n)
  | .text s => s.map .text
  | .array items close _ =>
    match room with
    | 0 => .error .tooDeep
    | room + 1 => do
      let vs ← values room items
      closing close
      return .array vs
  | .object members close =>
    match room with
    | 0 => .error .tooDeep
    | room + 1 => do
      let ms ← memberValues room [] members
      closing close
      return .object ms
  | .broken stop => .error stop.reading

def values (room : Nat) : List Draft → Except Fault (List Value)
  | [] => .ok []
  | d :: ds => do
    let v ← value room d
    let vs ← values room ds
    return v :: vs

def memberValues (room : Nat) (sofar : List (String × Value)) :
    List (Except Fault String × Draft) → Except Fault (List (String × Value))
  | [] => .ok sofar
  | (key, d) :: rest => do
    let key ← key
    let v ← value room d
    memberValues room (setMember key v sofar) rest

end

mutual

/-- Passes over a draft. Depth, range and lone surrogates do not matter then. -/
def skip : Draft → Except Fault Unit
  | .array items close _ => do
    skipAll items
    match close with
    | none => .ok ()
    | some stop => .error stop.skipping
  | .object members close => do
    skipMembers members
    match close with
    | none => .ok ()
    | some stop => .error stop.skipping
  | .broken stop => .error stop.skipping
  | _ => .ok ()

def skipAll : List Draft → Except Fault Unit
  | [] => .ok ()
  | d :: ds => do
    skip d
    skipAll ds

def skipMembers : List (Except Fault String × Draft) → Except Fault Unit
  | [] => .ok ()
  | (_, d) :: rest => do
    skip d
    skipMembers rest

end

mutual

/-- The draft of a value at hand: nothing in it can break off. -/
def ofValue : Value → Draft
  | .null => .null
  | .boolean b => .boolean b
  | .number n => .numeral (some n)
  | .text s => .text (.ok s)
  | .array vs => .array (ofValues vs) none (.wrongLength vs.length "fewer elements in array")
  | .object ms => .object (ofMembers ms) none

def ofValues : List Value → List Draft
  | [] => []
  | v :: vs => ofValue v :: ofValues vs

def ofMembers : List (String × Value) → List (Except Fault String × Draft)
  | [] => []
  | (key, v) :: rest => (.ok key, ofValue v) :: ofMembers rest

end

/-- The fault of meeting this draft where something else is expected. -/
def mismatch (expected : String) : Draft → Fault
  | .null => .wrongType "null" expected
  | .boolean b => .wrongType s!"boolean `{b}`" expected
  | .numeral none => .numberOutOfRange
  | .numeral (some (.integer n)) => .wrongType s!"integer `{n}`" expected
  | .numeral (some (.real x)) =>
    .wrongType ("floating point `" ++ String.ofList (x.chars false) ++ "`") expected
  | .text (.ok s) => .wrongType ("string " ++ Text.literal s) expected
  | .text (.error fault) => fault
  | .array .. => .wrongType "sequence" expected
  | .object .. => .wrongType "map" expected
  | .broken stop => stop.reading

end Draft
end AssessmentPlans.Json
