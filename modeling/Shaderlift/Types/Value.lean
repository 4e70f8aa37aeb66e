import Shaderlift.Text.Dotted

/-!
Value types: scalars, vectors, matrices, structs and arrays of them, and the spellings by which the
built-in ones are known.
-/

namespace Shaderlift

/-- What is looked up is listed. -/
theorem mem_of_lookup {α β : Type} [BEq α] [LawfulBEq α] {key : α} {value : β} {entries : List (α × β)}
    (hLookup : entries.lookup key = some value) : (key, value) ∈ entries := by
  obtain ⟨before, after, rfl, -⟩ := List.lookup_eq_some_iff.mp hLookup
  simp

/-- The kind of a component. -/
inductive Scalar where
  | bool | int | uint | float | double
  deriving DecidableEq, Repr, Inhabited

namespace Scalar

def spelling : Scalar → String
  | .bool => "bool"
  | .int => "int"
  | .uint => "uint"
  | .float => "float"
  | .double => "double"

/-- The bytes a component takes; a truth value takes a full slot. -/
def size : Scalar → Nat
  | .double => 8
  | _ => 4

def rank : Scalar → Nat
  | .bool => 0
  | .int => 1
  | .uint => 2
  | .float => 3
  | .double => 4

/-- Return the component type of higher rank. -/
def wider (a b : Scalar) : Scalar :=
  if b.rank > a.rank then b else a

def all : List Scalar := [.bool, .int, .uint, .float, .double]

end Scalar

/-- A value type. The length of an array may be unknown. -/
inductive ValueType where
  | void
  | scalar (kind : Scalar)
  | vector (kind : Scalar) (width : Nat)
  | matrix (kind : Scalar) (rows cols : Nat)
  | struct (name : String)
  | array (element : ValueType) (length : Option Nat)
  deriving DecidableEq, Repr, Inhabited

namespace ValueType

def float : ValueType := .scalar .float

def int : ValueType := .scalar .int

def uint : ValueType := .scalar .uint

def bool : ValueType := .scalar .bool

def scalar? : ValueType → Option Scalar
  | .scalar kind => some kind
  | .vector kind _ => some kind
  | .matrix kind _ _ => some kind
  | _ => none

def width? : ValueType → Option Nat
  | .scalar _ => some 1
  | .vector _ width => some width
  | _ => none

def isMatrix : ValueType → Bool
  | .matrix _ _ _ => true
  | _ => false

def isNumeric (type : ValueType) : Bool := type.scalar?.isSome

/-- Keep the shape of a type and change its component type. -/
def withScalar (kind : Scalar) : ValueType → ValueType
  | .scalar _ => .scalar kind
  | .vector _ width => .vector kind width
  | .matrix _ rows cols => .matrix kind rows cols
  | type => type

def suffix : ValueType → String
  | .array element (some length) => "[" ++ toString length ++ "]" ++ element.suffix
  | .array element none => "[]" ++ element.suffix
  | _ => ""

/-- Spell a type; an array is spelled like its innermost element. -/
def spelling : ValueType → String
  | .void => "void"
  | .scalar kind => kind.spelling
  | .vector kind width => kind.spelling ++ toString width
  | .matrix kind rows cols => kind.spelling ++ toString rows ++ "x" ++ toString cols
  | .struct name => name
  | .array element _ => element.spelling

def render (type : ValueType) : String := type.spelling ++ type.suffix

def dimension? (c : Char) : Option Nat :=
  if '1' ≤ c && c ≤ '4' then some (c.toNat - '0'.toNat) else none

def shaped? (kind : Scalar) : List Char → Option ValueType
  | [n] => (dimension? n).map (.vector kind)
  | [rows, 'x', cols] => do
    let rows ← dimension? rows
    let cols ← dimension? cols
    pure (.matrix kind rows cols)
  | _ => none

/-- The names of component types that dimensions may follow. -/
def shapeNames : List (String × Scalar) :=
  [("Bool", .bool), ("UInt", .uint), ("Int", .int), ("Float", .float), ("Double", .double),
   ("bool", .bool), ("uint", .uint), ("int", .int), ("float", .float), ("double", .double)]

def plainNames : List (String × ValueType) :=
  [("void", .void), ("bool", .bool), ("Boolean", .bool), ("Bool", .bool), ("int", .int), ("Int32", .int),
   ("uint", .uint), ("UInt32", .uint), ("float", .float), ("Single", .float),
   ("double", .scalar .double), ("Double", .scalar .double), ("Vector2", .vector .float 2),
   ("Vector3", .vector .float 3), ("Vector4", .vector .float 4), ("Matrix4x4", .matrix .float 4 4),
   ("Matrix3x2", .matrix .float 3 2)]

def ofName? (name : String) : Option ValueType :=
  match plainNames.lookup name with
  | some type => some type
  | none =>
    shapeNames.findSome? fun (start, kind) =>
      (Text.stripStart start.toList name.toList).bind (shaped? kind)

end ValueType

end Shaderlift
