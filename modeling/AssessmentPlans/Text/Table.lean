import AssessmentPlans.Text.Pieces
import AssessmentPlans.Text.Width

/-! Text tables: a rule above, between and below all rows, and one line for each
line of the tallest cell of a row. -/
namespace AssessmentPlans.Text

/-- A cell is the list of its lines. -/
abbrev Cell := List (List Char)

def cell (s : String) : Cell := splitOn '\n' s.toList

/-- The width of the widest cell of each column. -/
def columnWidths (rows : List (List Cell)) : List Nat :=
  rows.foldl (fun widths row =>
    (widths.zip row).map fun (w, c) => (c.map width).foldl max w)
    ((rows.head?.getD []).map fun _ => 0)

def rule (widths : List Nat) : List Char :=
  '+' :: widths.flatMap fun w => List.replicate (w + 2) '-' ++ ['+']

/-- One line of a row; a cell with fewer lines is blank there. -/
def rowLine (widths : List Nat) (row : List Cell) (n : Nat) : List Char :=
  '|' :: (widths.zip row).flatMap fun (w, c) =>
    let line := c.getD n []
    ' ' :: line ++ List.replicate (w - width line) ' ' ++ [' ', '|']

def rowLines (widths : List Nat) (row : List Cell) : List (List Char) :=
  (List.range ((row.map List.length).foldl max 0)).map (rowLine widths row)

/-- The lines of a table, the row of headings first. -/
def tableLines (rows : List (List Cell)) : List (List Char) :=
  let widths := columnWidths rows
  rule widths :: rows.flatMap fun row => rowLines widths row ++ [rule widths]

def table (rows : List (List String)) : String :=
  "\n".intercalate ((tableLines (rows.map (·.map cell))).map String.ofList)

end AssessmentPlans.Text
