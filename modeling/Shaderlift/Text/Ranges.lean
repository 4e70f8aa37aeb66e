/-!
Sets of code points given by the lengths of the runs of their members and of the code points between them.  The
first run, from 0 on, lies outside the set, the second inside, and so on.
-/

namespace Shaderlift.Text

def inRuns : List Nat → Nat → Bool
  | [], _ => false
  | run :: runs, code => if code < run then false else !inRuns runs (code - run)

end Shaderlift.Text
