import AssessmentPlans.Json.Reader

/-! Shapes that documents demand of JSON values, and reading by them. Members
are examined in the order in which they stand, and the first problem counts;
only then are missing fields looked for, in the order of their declaration.

What is read comes back in normal form: the fields in declaration order, absent
ones left out or filled in, then the members that are not fields by key. -/
namespace AssessmentPlans.Json

/-- What becomes of a field that is not there. An optional field may be null,
which counts as absent. -/
inductive Need where
  | required
  | optional
  | filled (value : Value)

/-- An open record keeps members that are not fields and has to be an object. A
closed record drops them, and an array of its fields in order will do for it. -/
inductive Style where
  | opened
  | closed
  deriving DecidableEq

mutual

/-- A text names what it is and says what is wrong with one that is not. -/
inductive Shape where
  | text (expected : String) (objection : String → Option String)
  | list (item : Shape)
  | record (name : String) (style : Style) (fields : Fields)

inductive Fields where
  | nil
  | cons (name : String) (need : Need) (shape : Shape) (rest : Fields)

end

/-- Any text. -/
def Shape.anyText : Shape := .text "a string" fun _ => none

def Fields.ofList : List (String × Need × Shape) → Fields
  | [] => .nil
  | (name, need, shape) :: rest => .cons name need shape (ofList rest)

def Fields.names : Fields → List String
  | .nil => []
  | .cons name _ _ rest => name :: rest.names

/-- The fields that have been met, and the other members by key. A field that is
null and may be absent has no value. -/
structure Gathered where
  known : List (String × Option Value)
  others : List (String × Value)

/-- Goes through members in order. `readField` answers for fields only. -/
def gather (style : Style) (room : Nat)
    (readField : String → Draft → Option (Except Fault (Option Value))) :
    Gathered → List (Except Fault String × Draft) → Except Fault Gathered
  | g, [] => .ok g
  | g, (key, d) :: rest => do
    let key ← key
    match readField key d with
    | some result =>
      if (g.known.lookup key).isSome then .error (.duplicate key) else
        let v ← result
        gather style room readField { g with known := (key, v) :: g.known } rest
    | none =>
      match style with
      | .opened =>
        let v ← d.value room
        gather style room readField { g with others := setMember key v g.others } rest
      | .closed =>
        d.skip
        gather style room readField g rest

/-- The fields in declaration order, from what was gathered. -/
def Fields.assemble (known : List (String × Option Value)) :
    Fields → Except Fault (List (String × Value))
  | .nil => .ok []
  | .cons name need _ rest => do
    match known.lookup name, need with
    | some (some v), _ => return (name, v) :: (← rest.assemble known)
    | some none, _ => rest.assemble known
    | none, .required => .error (.missing name)
    | none, .optional => rest.assemble known
    | none, .filled v => return (name, v) :: (← rest.assemble known)

/-- The fault of a list of fields that ends too early. -/
def tooShort (name : String) (count length : Nat) : Fault :=
  let elements := if count = 1 then "element" else "elements"
  .wrongLength length s!"struct {name} with {count} {elements}"

def Draft.isNull : Draft → Bool
  | .null => true
  | _ => false

def Need.isOptional : Need → Bool
  | .optional => true
  | _ => false

mutual

/-- Reads a draft by a shape, with room for that many containers. -/
def Shape.read (room : Nat) : Shape → Draft → Except Fault Value
  | .text expected objection, d =>
    match d with
    | .text (.ok s) =>
      match objection s with
      | none => .ok (.text s)
      | some reason => .error (.unreadable reason)
    | d => .error (d.mismatch expected)
  | .list item, d =>
    match d, room with
    | .array _ _ _, 0 => .error .tooDeep
    | .array ds close _, room + 1 => do
      let vs ← ds.mapM (item.read room)
      Draft.closing close
      return .array vs
    | d, _ => .error (d.mismatch "a sequence")
  | .record name style fields, d =>
    match d, style, room with
    | .object _ _, _, 0 => .error .tooDeep
    | .object ms close, style, room + 1 => do
      let g ← gather style room (fields.readField room) ⟨[], []⟩ ms
      Draft.closing close
      return .object ((← fields.assemble g.known) ++ g.others)
    | .array _ _ _, .closed, 0 => .error .tooDeep
    | .array ds close surplus, .closed, room + 1 => do
      let ms ← fields.readInOrder room (tooShort name fields.names.length) close surplus 0 ds
      return .object ms
    | d, _, _ => .error (d.mismatch s!"struct {name}")

/-- Reads the value of a member, if its key is that of a field. -/
def Fields.readField (room : Nat) :
    Fields → String → Draft → Option (Except Fault (Option Value))
  | .nil, _, _ => none
  | .cons name need shape rest, key, d =>
    if key = name then
      some (if need.isOptional && d.isNull then .ok none else (shape.read room d).map some)
    else rest.readField room key d

/-- Reads the items of a list as the fields in order, from the item with the given
number on. -/
def Fields.readInOrder (room : Nat) (short : Nat → Fault) (close : Option Stop)
    (surplus : Fault) : Fields → Nat → List Draft → Except Fault (List (String × Value))
  | .nil, _, _ :: _ => .error surplus
  | .nil, _, [] =>
    match close with
    | none => .ok []
    | some stop => .error stop.ending
  | .cons name need shape rest, n, d :: ds => do
    if need.isOptional && d.isNull then rest.readInOrder room short close surplus (n + 1) ds
    else
      let v ← shape.read room d
      return (name, v) :: (← rest.readInOrder room short close surplus (n + 1) ds)
  | .cons name need _ rest, n, [] => do
    Draft.closing close
    match need with
    | .required => .error (short n)
    | .optional => rest.readInOrder room short close surplus (n + 1) []
    | .filled v => return (name, v) :: (← rest.readInOrder room short close surplus (n + 1) [])

end

mutual

/-- How many containers stand inside each other. -/
def Value.depth : Value → Nat
  | .array vs => depthOfItems vs + 1
  | .object ms => depthOfMembers ms + 1
  | _ => 0

def Value.depthOfItems : List Value → Nat
  | [] => 0
  | v :: vs => max v.depth (depthOfItems vs)

def Value.depthOfMembers : List (String × Value) → Nat
  | [] => 0
  | (_, v) :: ms => max v.depth (depthOfMembers ms)

end

/-- Reads a whole text by a shape. -/
def Shape.readText (shape : Shape) (s : String) : Except Fault Value :=
  (Source.ofText s).read (shape.read depthLimit)

/-- Reads a value at hand by a shape; its depth does not matter. -/
def Shape.readValue (shape : Shape) (v : Value) : Except Fault Value :=
  shape.read v.depth (Draft.ofValue v)

end AssessmentPlans.Json
