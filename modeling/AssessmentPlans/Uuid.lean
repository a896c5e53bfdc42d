import AssessmentPlans.Text.Characters

/-! Written forms of UUIDs. -/
namespace AssessmentPlans.Uuid

/-- The forms that are accepted; an `x` stands for a hexadecimal digit. -/
def forms : List String := [
  "xxxxxxxxxxxxxxxxxxxxxxxxxxxxxxxx",
  "xxxxxxxx-xxxx-xxxx-xxxx-xxxxxxxxxxxx",
  "\x7bxxxxxxxx-xxxx-xxxx-xxxx-xxxxxxxxxxxx\x7d",
  "urn:uuid:xxxxxxxx-xxxx-xxxx-xxxx-xxxxxxxxxxxx"]

/-- Whether the characters follow a form, letters in either case. -/
def follows : List Char → List Char → Bool
  | [], [] => true
  | f :: form, c :: cs => (if f = 'x' then Text.isHexDigit c else c.toLower == f) && follows form cs
  | _, _ => false

/-- Whether a text is a UUID in one of the forms. -/
def isValid (s : String) : Bool := forms.any fun form => follows form.toList s.toList

/-- A byte as two digits. -/
def byteDigits (b : Nat) : List Char := [Nat.digitChar (b / 16 % 16), Nat.digitChar (b % 16)]

/-- The identifier of sixteen random bytes, four bits of which tell that they are
random and two how they are laid out. -/
def random (bytes : List Nat) : String :=
  let marked := bytes.mapIdx fun i b =>
    if i = 6 then 64 + b % 16 else if i = 8 then 128 + b % 64 else b
  let digits := marked.flatMap byteDigits
  "-".intercalate ([(0, 8), (8, 4), (12, 4), (16, 4), (20, 12)].map fun (start, size) =>
    String.ofList ((digits.drop start).take size))

end AssessmentPlans.Uuid
