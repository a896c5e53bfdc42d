/-! What is stored: files of bytes, which stand for a text if they are UTF-8, and why it cannot
be had. -/
namespace AssessmentPlans

/-- Why an action on files fails. -/
inductive FileError where
  | missing
  | notDirectory
  | isDirectory
  | alreadyExists
  | nameTooLong
  | notText
  | other (message : String)
  deriving DecidableEq

def FileError.message : FileError → String
  | .missing => "No such file or directory (os error 2)"
  | .notDirectory => "Not a directory (os error 20)"
  | .isDirectory => "Is a directory (os error 21)"
  | .alreadyExists => "File exists (os error 17)"
  | .nameTooLong => "File name too long (os error 36)"
  | .notText => "stream did not contain valid UTF-8"
  | .other message => message

/-- What stands in the tree. Of a file that is not a text throughout, only the lines
before the first one that is not are kept. -/
inductive Entry where
  | directory
  | text (content : String)
  | binary (start : String)
  deriving DecidableEq

/-- The lines of bytes, each with its line break. -/
def byteLines : List UInt8 → List (List UInt8)
  | [] => []
  | b :: bs =>
    match byteLines bs with
    | [] => [[b]]
    | line :: lines => if b = 10 then [b] :: line :: lines else (b :: line) :: lines

/-- The text of the lines before the first one that is not UTF-8. -/
def textStart (lines : List (List UInt8)) : String :=
  let decoded := lines.map fun line => String.fromUTF8? ⟨line.toArray⟩
  String.join ((decoded.takeWhile Option.isSome).filterMap id)

def Entry.ofBytes (bytes : ByteArray) : Entry :=
  match String.fromUTF8? bytes with
  | some s => .text s
  | none => .binary (textStart (byteLines bytes.toList))

end AssessmentPlans
