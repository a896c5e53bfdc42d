import AssessmentPlans.Framework
import AssessmentPlans.Plan.Validity
import AssessmentPlans.Text.Table

/-! What commands print: text for people, in colour where the terminal wants it,
or JSON for scripts. -/
namespace AssessmentPlans
open Json (Value)

inductive OutputFormat where
  | text
  | json
  deriving DecidableEq

/-- How output is written. -/
structure Style where
  format : OutputFormat
  colored : Bool

inductive Colour where
  | red
  | green
  | yellow

def Colour.code : Colour → String
  | .red => "31"
  | .green => "32"
  | .yellow => "33"

namespace Style

def paint (st : Style) (c : Colour) (s : String) : String :=
  if st.colored then "\x1b[" ++ c.code ++ "m" ++ s ++ "\x1b[0m" else s

/-- At most that many characters; three dots stand for what is left out. -/
def truncate (limit : Nat) (s : String) : String :=
  if s.length ≤ limit then s else String.ofList (s.toList.take (limit - 3)) ++ "..."

def cellLimit : Nat := 40

def lines (ls : List String) : String := String.join (ls.map (· ++ "\n"))

def entryRow (e : ReportEntry) : List String :=
  [e.location.text, (e.before.map toString).getD "all", toString e.included.length,
    truncate cellLimit (", ".intercalate e.included)]

def reportTable (entries : List ReportEntry) : List String :=
  if entries.isEmpty then []
  else [Text.table (["Selection", "Before", "Kept", "Controls"] :: entries.map entryRow)]

def reportText (st : Style) (r : Report) : String :=
  let emptied := st.paint .yellow (toString r.emptied)
  let retained := st.paint .green (toString r.retained.size)
  lines (["", "Scope applied"] ++ reportTable r.entries ++
    ["", s!"{r.visited} selection(s) filtered, {emptied} left empty, {retained} control(s) retained"] ++
    if r.skipped.isEmpty then []
    else ["", st.paint .yellow "⚠" ++ " Skipped:"] ++ r.skipped.map fun b => "   - " ++ b.text)

def report (st : Style) (r : Report) : String :=
  match st.format with
  | .json => r.toValue.pretty
  | .text => st.reportText r

def issueLines (is : List Issue) : List String := is.map fun i => "   - " ++ i.text

def issuesText (st : Style) (withWarnings : Bool) (is : Issues) : String :=
  let verdict :=
    if is.errors.isEmpty then [st.paint .green "✓" ++ " Assessment plan is valid"]
    else (st.paint .red "✗" ++ s!" Assessment plan has {is.errors.length} error(s):") ::
      issueLines is.errors
  lines (verdict ++
    if withWarnings && !is.warnings.isEmpty then
      ["", st.paint .yellow "⚠" ++ " Warnings:"] ++ issueLines is.warnings
    else [])

def issues (st : Style) (withWarnings : Bool) (is : Issues) : String :=
  match st.format with
  | .json => is.toValue.pretty
  | .text => st.issuesText withWarnings is

def frameworkRow (s : FrameworkSummary) : List String :=
  [s.id, toString s.controls, truncate cellLimit (", ".intercalate s.components)]

def frameworks (st : Style) (ss : List FrameworkSummary) : String :=
  match st.format with
  | .json => (Value.array (ss.map FrameworkSummary.toValue)).pretty
  | .text =>
    if ss.isEmpty then "No frameworks found.\n"
    else Text.table (["Framework", "Controls", "Components"] :: ss.map frameworkRow) ++ "\n"

def success (st : Style) (message : String) : String :=
  match st.format with
  | .json =>
    (Value.object [("message", .text message), ("status", .text "success")]).pretty
  | .text => st.paint .green "✓" ++ " " ++ message

end Style
end AssessmentPlans
