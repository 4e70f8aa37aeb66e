import Shaderlift.Diagnostic.Rule
import Shaderlift.Text.Dotted
import Shaderlift.Text.Span

/-!
Diagnostics and reports. A report is the list of diagnostics in the order in which they were found;
sorting puts those without a place first, orders the others by place, rule and message, and drops
repetitions.
-/

namespace Shaderlift

/-- A broken rule: the rule, the message and the place. -/
structure Diagnostic where
  rule : Rule
  message : String
  span : Option Span
  deriving DecidableEq, Repr

namespace Diagnostic

def make (rule : Rule) (span : Option Span) (args : List String) : Diagnostic :=
  ⟨rule, rule.wording.fill args, span⟩

def severity (diagnostic : Diagnostic) : Severity := diagnostic.rule.severity

def isError (diagnostic : Diagnostic) : Bool := diagnostic.severity == .error

def render (diagnostic : Diagnostic) : String :=
  let text := diagnostic.severity.name ++ " " ++ diagnostic.rule.code ++ ": " ++ diagnostic.message
  match diagnostic.span with
  | some span => span.render ++ ": " ++ text
  | none => text

/-- Compare two places; no place comes before every place. -/
def compareSpan : Option Span → Option Span → Ordering
  | none, none => .eq
  | none, some _ => .lt
  | some _, none => .gt
  | some a, some b => a.compare b

/-- Compare two diagnostics by place, rule and message. -/
def compare (a b : Diagnostic) : Ordering :=
  (compareSpan a.span b.span).then <| (Ord.compare a.rule.number b.rule.number).then
    (Ord.compare a.message b.message)

end Diagnostic

/-- Diagnostics in the order in which they were found. -/
abbrev Report := List Diagnostic

namespace Report

def hasErrors (report : Report) : Bool := report.any Diagnostic.isError

def errors (report : Report) : Report := report.filter Diagnostic.isError

def warnings (report : Report) : Report := report.filter fun diagnostic => !diagnostic.isError

/-- The rules that a report says are broken, in the order of their numbers. -/
def rules (report : Report) : List Rule :=
  Rule.all.filter fun rule => report.any fun diagnostic => diagnostic.rule == rule

def mentions (report : Report) (rule : Rule) : Bool :=
  report.any fun diagnostic => diagnostic.rule == rule

def dropRepeats : Report → Report
  | [] => []
  | first :: rest =>
    match dropRepeats rest with
    | [] => [first]
    | second :: others => if first = second then second :: others else first :: second :: others

def sorted (report : Report) : Report :=
  dropRepeats (report.mergeSort fun a b => a.compare b != .gt)

def render (report : Report) : String :=
  Text.joinWith "\n" (report.map Diagnostic.render)

end Report

end Shaderlift
