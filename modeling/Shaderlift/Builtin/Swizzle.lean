import Shaderlift.Source.Tree.Expr

/-!
Names of components: swizzles of vectors and elements of matrices.
-/

namespace Shaderlift.Swizzle

/-- Decide whether every letter is one of the first letters of a set. -/
def within (letters : List Char) (width : Nat) (name : List Char) : Bool :=
  name.all fun c =>
    match letters.idxOf? c with
    | some i => i < width
    | none => false

/-- Return the swizzle that a property of a vector stands for: one to four letters of one set, in any
case, that name components of the vector. -/
def ofName? (name : String) (width : Nat) : Option String :=
  let lower := name.toList.map Char.toLower
  if lower.isEmpty || lower.length > 4 then none
  else if within "xyzw".toList width lower || within "rgba".toList width lower then
    some (String.ofList lower)
  else none

def ordinal? (c : Char) (bound : Nat) : Option Nat :=
  let value := c.toNat - '0'.toNat
  if c.isDigit && 0 < value && value ≤ bound then some (value - 1) else none

/-- Read the row and column, counting from zero, of an element named like `M12`. -/
def position? (name : String) (rows cols : Nat) : Option (Nat × Nat) :=
  match name.toList with
  | ['M', r, c] => do
    let row ← ordinal? r rows
    let col ← ordinal? c cols
    pure (row, col)
  | _ => none

def elementName (row col : Nat) : String :=
  "_m" ++ toString row ++ toString col

def element? (name : String) (rows cols : Nat) : Option String :=
  (position? name rows cols).map fun (row, col) => elementName row col

/-- Return the name by which an expression refers to a matrix position. -/
def indexName? (expr : Expr) : Option String :=
  match expr.unparen with
  | .ident _ name => some name
  | .member _ target name _ =>
    match target.path? with
    | some path => if Text.lastSegment path == "MatrixIndex" then some name else none
    | none => none
  | _ => none

/-- Return the row and column, counting from zero, that an expression refers to. -/
def index? (expr : Expr) : Option (Nat × Nat) :=
  (indexName? expr).bind (position? · 4 4)

end Shaderlift.Swizzle
