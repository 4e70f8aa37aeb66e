import Shaderlift.Output.Stmt

/-!
Printing statements and functions, one line a text. Bodies stand in braces and are indented by four blanks;
the branch of an `if` that is another `if` follows on the line of `else`.
-/

namespace Shaderlift

abbrev Lines := List String

namespace Lines

/-- Indent a line by levels of four blanks; an empty line stays empty. -/
def indentLine (levels : Nat) (line : String) : String :=
  if line.isEmpty then line else String.ofList (List.replicate (4 * levels) ' ') ++ line

def indent (lines : Lines) : Lines := lines.map (indentLine 1)

def braced (lines : Lines) (ending : String) : Lines :=
  ["\x7b"] ++ indent lines ++ ["\x7d" ++ ending]

def text (lines : Lines) : String := String.join (lines.map (· ++ "\n"))

end Lines

namespace OutStmt

mutual

def lines : OutStmt → Lines
  | .block stmts => Lines.braced (linesOfAll stmts) ""
  | .line text => [text]
  | .ifElse cond thenBranch elseBranch =>
    ("if (" ++ cond ++ ")") :: childLines thenBranch ++ elseLines elseBranch
  | .whileLoop cond body => ("while (" ++ cond ++ ")") :: childLines body
  | .doWhile body cond => "do" :: Lines.braced (innerLines body) (" while (" ++ cond ++ ");")
  | .forLoop init cond step body =>
    ("for (" ++ init ++ "; " ++ cond ++ "; " ++ step ++ ")") :: childLines body
  | .switchOn scrutinee sections =>
    ("switch (" ++ scrutinee ++ ")") :: Lines.braced (sectionLines sections) ""
  | .returning (some value) => ["return " ++ value ++ ";"]
  | .returning none => ["return;"]

def linesOfAll : List OutStmt → Lines
  | [] => []
  | stmt :: rest => lines stmt ++ linesOfAll rest

/-- Print what stands inside the braces of a body. -/
def innerLines : OutStmt → Lines
  | .block stmts => linesOfAll stmts
  | stmt => lines stmt

def childLines : OutStmt → Lines
  | .block stmts => Lines.braced (linesOfAll stmts) ""
  | stmt => Lines.braced (lines stmt) ""

def elseLines : Option OutStmt → Lines
  | some (.ifElse cond thenBranch elseBranch) =>
    ("else if (" ++ cond ++ ")") :: childLines thenBranch ++ elseLines elseBranch
  | some stmt => "else" :: childLines stmt
  | none => []

def sectionLines : List OutSection → Lines
  | [] => []
  | ⟨labels, body⟩ :: rest => labels ++ Lines.indent (linesOfAll body) ++ sectionLines rest

end

end OutStmt

namespace OutFunction

def bodyLines (function : OutFunction) : Lines := Lines.braced (OutStmt.linesOfAll function.body) ""

def lines (function : OutFunction) : Lines :=
  function.attributes ++ [function.signature] ++ function.bodyLines

end OutFunction

end Shaderlift
