import Shaderlift.Program.Kind
import Shaderlift.Text.Dotted

/-!
Built-in functions: the static types that offer them and, for each, the functions by name. The functions
of image effects are known only to shaders of that kind.
-/

namespace Shaderlift

/-- A built-in function: its name in the output, and whether it reads the scene position. -/
structure Intrinsic where
  name : String
  readsScenePosition : Bool
  deriving DecidableEq, Repr, Inhabited

/-- The static types that offer built-in functions. -/
inductive IntrinsicOwner where
  | hlsl | math | effect
  deriving DecidableEq, Repr

namespace Intrinsic

def hlslTable : List (String × String) :=
  [("Abs", "abs"), ("Acos", "acos"), ("All", "all"), ("AllMemoryBarrier", "AllMemoryBarrier"),
   ("AllMemoryBarrierWithGroupSync", "AllMemoryBarrierWithGroupSync"), ("Any", "any"),
   ("AsDouble", "asdouble"), ("AsFloat", "asfloat"), ("AsInt", "asint"), ("AsUInt", "asuint"),
   ("Asin", "asin"), ("Atan", "atan"), ("Atan2", "atan2"), ("Ceil", "ceil"), ("Clamp", "clamp"),
   ("Clip", "clip"), ("Cos", "cos"), ("Cosh", "cosh"), ("CountBits", "countbits"), ("Cross", "cross"),
   ("Ddx", "ddx"), ("Ddy", "ddy"), ("Degrees", "degrees"), ("Determinant", "determinant"),
   ("DeviceMemoryBarrier", "DeviceMemoryBarrier"),
   ("DeviceMemoryBarrierWithGroupSync", "DeviceMemoryBarrierWithGroupSync"), ("Distance", "distance"),
   ("Dot", "dot"), ("Exp", "exp"), ("Exp2", "exp2"), ("F16ToF32", "f16tof32"), ("F32ToF16", "f32tof16"),
   ("FaceForward", "faceforward"), ("FirstBitHigh", "firstbithigh"), ("FirstBitLow", "firstbitlow"),
   ("Floor", "floor"), ("Fma", "fma"), ("Fmod", "fmod"), ("Frac", "frac"), ("Frexp", "frexp"),
   ("Fwidth", "fwidth"), ("GroupMemoryBarrier", "GroupMemoryBarrier"),
   ("GroupMemoryBarrierWithGroupSync", "GroupMemoryBarrierWithGroupSync"),
   ("InterlockedAdd", "InterlockedAdd"), ("InterlockedAnd", "InterlockedAnd"),
   ("InterlockedCompareExchange", "InterlockedCompareExchange"),
   ("InterlockedCompareStore", "InterlockedCompareStore"),
   ("InterlockedExchange", "InterlockedExchange"), ("InterlockedMax", "InterlockedMax"),
   ("InterlockedMin", "InterlockedMin"), ("InterlockedOr", "InterlockedOr"),
   ("InterlockedXor", "InterlockedXor"), ("IsFinite", "isfinite"), ("IsInfinite", "isinf"),
   ("IsNaN", "isnan"), ("Ldexp", "ldexp"), ("Length", "length"), ("Lerp", "lerp"), ("Log", "log"),
   ("Log10", "log10"), ("Log2", "log2"), ("Mad", "mad"), ("Max", "max"), ("Min", "min"),
   ("Modf", "modf"), ("Mul", "mul"), ("Normalize", "normalize"), ("Pow", "pow"), ("Radians", "radians"),
   ("Rcp", "rcp"), ("Reflect", "reflect"), ("Refract", "refract"), ("ReverseBits", "reversebits"),
   ("Round", "round"), ("Rsqrt", "rsqrt"), ("Saturate", "saturate"), ("Sign", "sign"), ("Sin", "sin"),
   ("SinCos", "sincos"), ("Sinh", "sinh"), ("SmoothStep", "smoothstep"), ("Sqrt", "sqrt"),
   ("Step", "step"), ("Tan", "tan"), ("Tanh", "tanh"), ("Transpose", "transpose"), ("Trunc", "trunc")]

def mathTable : List (String × String) :=
  [("Abs", "abs"), ("Acos", "acos"), ("Asin", "asin"), ("Atan", "atan"), ("Atan2", "atan2"),
   ("Ceiling", "ceil"), ("Clamp", "clamp"), ("Cos", "cos"), ("Cosh", "cosh"), ("Exp", "exp"),
   ("Floor", "floor"), ("FusedMultiplyAdd", "mad"), ("Log", "log"), ("Log10", "log10"),
   ("Log2", "log2"), ("Max", "max"), ("Min", "min"), ("Pow", "pow"), ("ReciprocalEstimate", "rcp"),
   ("ReciprocalSqrtEstimate", "rsqrt"), ("Round", "round"), ("Sign", "sign"), ("Sin", "sin"),
   ("Sinh", "sinh"), ("Sqrt", "sqrt"), ("Tan", "tan"), ("Tanh", "tanh"), ("Truncate", "trunc")]

def effectTable : List (String × Intrinsic) :=
  [("GetInput", ⟨"D2DGetInput", false⟩), ("GetInputCoordinate", ⟨"D2DGetInputCoordinate", false⟩),
   ("SampleInput", ⟨"D2DSampleInput", false⟩),
   ("SampleInputAtOffset", ⟨"D2DSampleInputAtOffset", false⟩),
   ("SampleInputAtPosition", ⟨"D2DSampleInputAtPosition", true⟩),
   ("GetScenePosition", ⟨"D2DGetScenePosition", true⟩)]

/-- Return the name by which tables know a static type. -/
def canonicalOwner (path : String) : String :=
  match Text.lastSegment path with
  | "Single" => "float"
  | "Double" => "double"
  | "Int32" => "int"
  | "UInt32" => "uint"
  | "MathF" => "MathF"
  | "Math" => "Math"
  | "Hlsl" => "Hlsl"
  | "D2D" => "D2D"
  | _ => path

/-- Find the static type of a path that offers built-in functions. -/
def owner? (path : String) : Option IntrinsicOwner :=
  match canonicalOwner path with
  | "Hlsl" => some .hlsl
  | "Math" => some .math
  | "MathF" => some .math
  | "D2D" => some .effect
  | _ => none

def find? (owner : IntrinsicOwner) (name : String) (kind : ShaderKind) : Option Intrinsic :=
  match owner with
  | .hlsl => (hlslTable.lookup name).map (⟨·, false⟩)
  | .math => (mathTable.lookup name).map (⟨·, false⟩)
  | .effect => if kind.isEffect then effectTable.lookup name else none

end Intrinsic

end Shaderlift
