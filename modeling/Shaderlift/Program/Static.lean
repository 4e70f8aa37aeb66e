import Shaderlift.Program.Shader

/-!
Static fields: their types and lengths, as far as the declaration fixes them.
-/

namespace Shaderlift

namespace Expr

def wordLiteral? (expr : Expr) : Option Nat :=
  match expr.unparen with
  | .literal _ (.int _ value _) => if value < UInt32.size then some value else none
  | _ => none

def arrayLength? : Expr → Option Nat
  | .newArray _ _ sizes init =>
    match sizes.head?.bind wordLiteral? with
    | some length => some length
    | none => init.map List.length
  | .arrayInit _ items => some items.length
  | _ => none

/-- Decide whether an expression creates an array without items. -/
def isSizedArray : Expr → Bool
  | .newArray _ _ _ none => true
  | _ => false

end Expr

def ValueType.struct? : ValueType → Option String
  | .struct name => some name
  | .array element _ => element.struct?
  | _ => none

/-- Find the type of a static field: a value type, or an array of one dimension whose length its initial
value fixes. -/
def Program.staticValueType? (program : Program) (type : TypeExpr) (init : Option Expr) :
    Option ValueType :=
  match program.meaning type, type with
  | .value type, _ => some type
  | .managed _, .array _ element 1 => do
    let element ← program.valueType? element
    let init ← init
    let length ← init.arrayLength?
    pure (.array element (some length))
  | _, _ => none

def FieldDecl.isConstant (field : FieldDecl) : Bool :=
  field.modifiers.contains .isConst || field.modifiers.contains .isReadonly

end Shaderlift
