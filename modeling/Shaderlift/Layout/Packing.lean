import Shaderlift.Layout.Limits
import Shaderlift.Program.Shader

/-!
Packing values into registers of a constant buffer. Scalars and vectors follow each other tightly but
cross no register; matrices, structs and arrays start a register, each row or element but the last takes
whole registers, and what follows a struct starts a register. Sizes saturate at the greatest 32-bit word.
The size of a struct is measured once and remembered; structs nested too deep count as empty.
-/

namespace Shaderlift

def maxSize : Nat := UInt32.size - 1

def addSize (a b : Nat) : Nat := min (a + b) maxSize

def mulSize (a b : Nat) : Nat := min (a * b) maxSize

def alignUp (value align : Nat) : Nat := addSize value (align - 1) / align * align

def alignRegister (value : Nat) : Nat := alignUp value Limits.registerBytes

abbrev StructEnv := String → Option (List StructField)

abbrev Sizing := StateM (List (String × Nat))

/-- How far a buffer is filled: where the last value ends, and where the next may start. -/
structure Packing where
  stop : Nat
  cursor : Nat
  deriving DecidableEq, Repr, Inhabited

namespace Packing

def start : Packing := ⟨0, 0⟩

/-- Find where a scalar or vector starts at or after a place. -/
def startOf (cursor component size : Nat) : Nat :=
  let offset := alignUp cursor component
  if offset % Limits.registerBytes + size > Limits.registerBytes then alignRegister offset else offset

def offsetOf (packing : Packing) (type : ValueType) (size : Nat) : Nat :=
  match type with
  | .scalar kind => startOf packing.cursor kind.size size
  | .vector kind _ => startOf packing.cursor kind.size size
  | _ => alignRegister packing.cursor

def place (packing : Packing) (type : ValueType) (size : Nat) : Nat × Packing :=
  let offset := packing.offsetOf type size
  let stop := addSize offset size
  match type with
  | .struct _ => (offset, ⟨stop, alignRegister stop⟩)
  | _ => (offset, ⟨stop, stop⟩)

def placeAll (measure : ValueType → Sizing Nat) : Packing → List ValueType → Sizing Packing
  | packing, [] => pure packing
  | packing, type :: rest => do
    let size ← measure type
    placeAll measure (packing.place type size).2 rest

end Packing

/-- The size of a matrix: every row but the last takes whole registers. -/
def matrixSize (kind : Scalar) (rows cols : Nat) : Nat :=
  let row := kind.size * cols
  alignRegister row * (rows - 1) + row

/-- The size of an array: every element but the last takes whole registers. -/
def arraySize (element : Nat) : Option Nat → Nat
  | none => 0
  | some 0 => 0
  | some (more + 1) => addSize (mulSize (alignRegister element) more) element

def sizeWith (structSize : String → Sizing Nat) : ValueType → Sizing Nat
  | .void => pure 0
  | .scalar kind => pure kind.size
  | .vector kind width => pure (kind.size * width)
  | .matrix kind rows cols => pure (matrixSize kind rows cols)
  | .struct name => structSize name
  | .array element length => do
    let size ← sizeWith structSize element
    pure (arraySize size length)

def maxStructDepth : Nat := 16

/-- Measure a struct on a number of levels that may still be entered. -/
def structSize (env : StructEnv) : Nat → String → Sizing Nat
  | 0, _ => pure 0
  | levels + 1, name => do
    match (← get).lookup name with
    | some size => pure size
    | none =>
      let fields := (env name).getD []
      let packing ←
        Packing.placeAll (sizeWith (structSize env levels)) .start (fields.map StructField.type)
      modify ((name, packing.stop) :: ·)
      pure packing.stop

def sizeOf (env : StructEnv) (type : ValueType) : Sizing Nat :=
  sizeWith (structSize env maxStructDepth) type

/-- A placed field. -/
structure FieldLayout where
  name : String
  type : ValueType
  offset : Nat
  size : Nat
  deriving DecidableEq, Repr, Inhabited

namespace FieldLayout

def register (field : FieldLayout) : Nat := field.offset / Limits.registerBytes

def component (field : FieldLayout) : String :=
  ["x", "y", "z", "w"].getD (field.offset % Limits.registerBytes / 4) ""

/-- Write where a field starts: register and component, or the register alone for a type that starts one. -/
def packOffset (field : FieldLayout) : String :=
  match field.type with
  | .scalar _ | .vector _ _ => "c" ++ toString field.register ++ "." ++ field.component
  | _ => "c" ++ toString field.register

/-- The size of a value outside the buffer, where the rows of a matrix follow each other tightly. -/
def hostSize (field : FieldLayout) : Nat :=
  match field.type with
  | .matrix kind rows cols => rows * cols * kind.size
  | _ => field.size

end FieldLayout

/-- The layout of a constant buffer. -/
structure Layout where
  fields : List FieldLayout
  size : Nat
  deriving DecidableEq, Repr, Inhabited

namespace Layout

/-- Place fields in order; return where the last one ends as well. -/
def placeFields (env : StructEnv) : Packing → List StructField → Sizing (List FieldLayout × Nat)
  | packing, [] => pure ([], packing.stop)
  | packing, field :: rest => do
    let size ← sizeOf env field.type
    let (offset, packing) := packing.place field.type size
    let (others, stop) ← placeFields env packing rest
    pure (⟨field.name, field.type, offset, size⟩ :: others, stop)

def build (fields : List StructField) (env : StructEnv) : Layout :=
  let ((placed, stop), _) := placeFields env .start fields []
  ⟨placed, stop⟩

def field? (layout : Layout) (name : String) : Option FieldLayout :=
  layout.fields.find? fun field => field.name == name

def registerSize (layout : Layout) : Nat := alignRegister layout.size

def isEmpty (layout : Layout) : Bool := layout.fields.isEmpty

end Layout

/-- Count how many values of a type, each at the start of a register, a constant buffer holds. -/
def constantBufferCapacity (type : ValueType) (env : StructEnv) : Nat :=
  let (size, _) := sizeOf env type []
  Limits.constantBufferBytes / alignRegister (max size 1)

end Shaderlift
