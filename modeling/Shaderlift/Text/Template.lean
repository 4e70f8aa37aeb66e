/-!
Wordings with numbered places. A place without an argument is filled with nothing.
-/

namespace Shaderlift

/-- A part of a wording. -/
inductive TemplatePart where
  | text (text : String)
  | arg (index : Nat)
  deriving DecidableEq, Repr

abbrev Template := List TemplatePart

namespace Template

def fill (args : List String) : Template → String
  | [] => ""
  | .text text :: rest => text ++ fill args rest
  | .arg index :: rest => args.getD index "" ++ fill args rest

/-- Write a wording with the numbers of its places in braces. -/
def render : Template → String
  | [] => ""
  | .text text :: rest => text ++ render rest
  | .arg index :: rest => "\x7b" ++ toString index ++ "\x7d" ++ render rest

end Template

end Shaderlift
