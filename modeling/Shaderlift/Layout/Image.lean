import Shaderlift.Layout.Packing
import Shaderlift.Text.Quoted

/-!
The bytes of a constant buffer. A buffer starts out zero; what is written to a field lies over what was
there. The rows of a matrix are given tightly and spread over registers.
-/

namespace Shaderlift

/-- Why a buffer cannot be written or copied. -/
inductive LayoutError where
  | unknownField (name : String)
  | sizeMismatch (field : String) (expected actual : Nat)
  | destinationTooSmall (required available : Nat)
  deriving DecidableEq, Repr, Inhabited

namespace LayoutError

def message : LayoutError → String
  | .unknownField name => "the constant buffer has no field named " ++ Text.quoted name
  | .sizeMismatch field expected actual =>
    "field " ++ Text.quoted field ++ " expects " ++ toString expected ++ " bytes, got " ++ toString actual
  | .destinationTooSmall required available =>
    "destination holds " ++ toString available ++ " bytes, but the constant buffer needs " ++
      toString required

end LayoutError

/-- Bytes laid over others from an offset on. -/
structure Patch where
  offset : Nat
  bytes : List UInt8
  deriving DecidableEq, Repr, Inhabited

namespace Patch

/-- Lay bytes over others. -/
def apply (patch : Patch) (under : List UInt8) : List UInt8 :=
  under.take patch.offset ++ patch.bytes ++ under.drop (patch.offset + patch.bytes.length)

def rows (row stride : Nat) : Nat → Nat → List UInt8 → List Patch
  | 0, _, _ => []
  | count + 1, offset, bytes =>
    ⟨offset, bytes.take row⟩ :: rows row stride count (offset + stride) (bytes.drop row)

end Patch

/-- A buffer: its layout and what has been laid over its zeros, in order. -/
structure BufferImage where
  layout : Layout
  patches : List Patch

namespace BufferImage

def zero (layout : Layout) : BufferImage := ⟨layout, []⟩

def bytes (image : BufferImage) : List UInt8 :=
  image.patches.foldl (fun under patch => patch.apply under) (List.replicate image.layout.size 0)

def patchesFor (field : FieldLayout) (value : List UInt8) : List Patch :=
  match field.type with
  | .matrix kind rows cols =>
    Patch.rows (kind.size * cols) (alignRegister (kind.size * cols)) rows field.offset value
  | _ => [⟨field.offset, value⟩]

def write (image : BufferImage) (name : String) (value : List UInt8) : Except LayoutError BufferImage :=
  match image.layout.field? name with
  | none => .error (.unknownField name)
  | some field =>
    if value.length != field.hostSize then
      .error (.sizeMismatch name field.hostSize value.length)
    else .ok { image with patches := image.patches ++ patchesFor field value }

/-- Copy the buffer to the front of other bytes; return the number of bytes copied as well. -/
def load (image : BufferImage) (target : List UInt8) : Except LayoutError (Nat × List UInt8) :=
  if target.length < image.layout.size then
    .error (.destinationTooSmall image.layout.size target.length)
  else .ok (image.layout.size, image.bytes ++ target.drop image.layout.size)

end BufferImage

end Shaderlift
