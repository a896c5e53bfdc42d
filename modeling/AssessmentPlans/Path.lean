import AssessmentPlans.Text.Pieces

/-! Paths as they are written. A path keeps its text, since messages show it. -/
namespace AssessmentPlans

structure Path where
  text : String
  deriving DecidableEq

namespace Path

def isAbsolute (p : Path) : Bool := p.text.toList.head? == some '/'

/-- The pieces between the slashes. -/
def pieces (p : Path) : List String := Text.split '/' p.text

/-- Goes on from a path. An absolute path stays as it is. -/
def join (base p : Path) : Path :=
  if p.isAbsolute || base.text.isEmpty then p
  else if base.text.toList.getLast? == some '/' then ⟨base.text ++ p.text⟩
  else ⟨base.text ++ "/" ++ p.text⟩

/-- The path of an entry of a directory. -/
def child (base : Path) (name : String) : Path := base.join ⟨name⟩

/-- Pieces that lead nowhere. -/
def isIdle (piece : String) : Bool := piece = "" || piece = "."

/-- The beginning that is not a piece of its own: the root, or a dot. -/
def start (p : Path) : List Char :=
  match p.text.toList with
  | '/' :: _ => ['/']
  | ['.'] => ['.']
  | '.' :: '/' :: _ => ['.']
  | _ => []

def dropIdle (pieces : List String) : List String := (pieces.reverse.dropWhile isIdle).reverse

/-- The path without its last piece. There is none above the root, nor above the
empty path. -/
def parent? (p : Path) : Option Path :=
  let body := Text.split '/' (String.ofList (p.text.toList.drop p.start.length))
  match dropIdle body with
  | [] => if p.start = ['.'] then some ⟨""⟩ else none
  | kept => some ⟨String.ofList p.start ++ "/".intercalate (dropIdle kept.dropLast)⟩

/-- Whether the name of a file ends in a dot and the extension, with something
before. -/
def hasExtension (extension name : String) : Bool :=
  let ending := '.' :: extension.toList
  name.length > ending.length && ending.reverse.isPrefixOf name.toList.reverse

/-- The path from the root that a path from `here` stands for. Idle pieces are left
out, steps to a parent are kept, and so is a slash at the end. -/
def absolute (p here : Path) : Path :=
  let names := p.pieces.filter fun piece => !isIdle piece
  let cs := p.text.toList
  let root : Path :=
    if !p.isAbsolute then here
    else if cs.take 2 == ['/', '/'] && cs[2]? != some '/' then ⟨"//"⟩
    else ⟨"/"⟩
  let whole := names.foldl child root
  if cs.getLast? == some '/' then whole.join ⟨""⟩ else whole

end Path
end AssessmentPlans
