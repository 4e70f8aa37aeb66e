import Shaderlift.Builtin.Intrinsic
import Shaderlift.Output.Expr
import Shaderlift.Text.Part
import Shaderlift.Types.Value

/-!
Built-in constants: limits and numbers of scalar types, and the unit vectors.
-/

namespace Shaderlift.Constant

def asFloat (bits : String) : OutExpr := .call (.ident "asfloat") [.int bits]

/-- The constants of scalar types by owner and name, as they are in the output. -/
def table : List (String × OutExpr) :=
  [("MathF.PI", .real "3.14159274f"), ("MathF.E", .real "2.71828175f"), ("MathF.Tau", .real "6.28318548f"),
   ("Math.PI", .real "3.1415926535897931L"), ("Math.E", .real "2.7182818284590451L"),
   ("Math.Tau", .real "6.2831853071795862L"), ("float.MaxValue", .real "3.402823466e+38f"),
   ("float.MinValue", .unary .neg (.real "3.402823466e+38f")), ("float.Epsilon", .real "1.401298464e-45f"),
   ("float.PositiveInfinity", asFloat "0x7F800000"), ("float.NegativeInfinity", asFloat "0xFF800000"),
   ("float.NaN", asFloat "0xFFC00000"), ("double.MaxValue", .real "1.7976931348623157e+308L"),
   ("double.MinValue", .unary .neg (.real "1.7976931348623157e+308L")), ("int.MaxValue", .int "2147483647"),
   ("int.MinValue", .paren (.binary .sub (.unary .neg (.int "2147483647")) (.int "1"))),
   ("uint.MaxValue", .int "4294967295u"), ("uint.MinValue", .int "0u")]

def scalar? (owner member : String) : Option OutExpr :=
  table.lookup (Text.dotted (Intrinsic.canonicalOwner owner) member)

def known? (owner member : String) : Option String := (scalar? owner member).map OutExpr.text

def typeOf (text : String) : ValueType :=
  if Text.endsIn 'f' text || Text.startsWith "asfloat" text then .float
  else if Text.endsIn 'L' text then .scalar .double
  else if Text.endsIn 'u' text then .uint
  else .int

def axes : List String := ["UnitX", "UnitY", "UnitZ", "UnitW"]

def unitVector (type : ValueType) (width axis : Nat) : OutExpr :=
  let component (i : Nat) : OutExpr := .int (if i == axis then "1" else "0")
  .call (.typeName type.spelling) ((List.range width).map component)

def typedVector? (owner member : String) : Option (OutExpr × ValueType) :=
  match ValueType.ofName? (Text.lastSegment owner) with
  | some (.vector kind width) =>
    let type := ValueType.vector kind width
    match member with
    | "Zero" => some (.cast type.spelling (.int "0"), type)
    | "One" => some (.cast type.spelling (.int "1"), type)
    | _ =>
      match axes.idxOf? member with
      | some axis => if axis < width then some (unitVector type width axis, type) else none
      | none => none
  | _ => none

/-- A vector constant is a number or an axis of the vector type that its owner names. -/
theorem typedVector?_cases {owner member : String} {value : OutExpr} {type : ValueType}
    (hVector : typedVector? owner member = some (value, type)) :
    ∃ kind width, ValueType.ofName? (Text.lastSegment owner) = some (.vector kind width) ∧ type = .vector kind width ∧
      ((∃ digit, value = .cast type.spelling (.int digit)) ∨ ∃ axis, value = unitVector type width axis) := by
  unfold typedVector? at hVector
  split at hVector
  · rename_i kind width hOwner
    refine ⟨kind, width, hOwner, ?_⟩
    dsimp only at hVector
    split at hVector
    · cases hVector
      exact ⟨rfl, .inl ⟨_, rfl⟩⟩
    · cases hVector
      exact ⟨rfl, .inl ⟨_, rfl⟩⟩
    · split at hVector
      · split at hVector <;> cases hVector
        exact ⟨rfl, .inr ⟨_, rfl⟩⟩
      · cases hVector
  · cases hVector

def vector? (owner member : String) : Option (String × ValueType) :=
  (typedVector? owner member).map fun (value, type) => (value.text, type)

end Shaderlift.Constant
