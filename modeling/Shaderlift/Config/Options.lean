import Shaderlift.Config.Flags
import Shaderlift.Program.Kind

/-!
The choices of a configuration: compile options, profiles, dispatch axes, and what an image effect says of
its inputs and output.
-/

namespace Shaderlift

/-- Options for the compiler, as a set of flags. Unknown bits are kept. -/
structure CompileOptions where
  bits : UInt32
  deriving DecidableEq, Repr, Inhabited

namespace CompileOptions

def table : Flags.Table :=
  [("DEBUG", 0x1), ("SKIP_VALIDATION", 0x2), ("SKIP_OPTIMIZATION", 0x4), ("PACK_MATRIX_ROW_MAJOR", 0x8),
   ("PACK_MATRIX_COLUMN_MAJOR", 0x10), ("PARTIAL_PRECISION", 0x20), ("AVOID_FLOW_CONTROL", 0x200),
   ("PREFER_FLOW_CONTROL", 0x400), ("ENABLE_STRICTNESS", 0x800), ("IEEE_STRICTNESS", 0x2000),
   ("OPTIMIZATION_LEVEL0", 0x4000), ("OPTIMIZATION_LEVEL2", 0xC000), ("OPTIMIZATION_LEVEL3", 0x8000),
   ("WARNINGS_ARE_ERRORS", 0x40000), ("RESOURCES_MAY_ALIAS", 0x80000), ("ALL_RESOURCES_BOUND", 0x200000),
   ("ENABLE_LINKING", 0x80000000)]

/-- The option to pack matrices by rows, and the highest level of optimization. -/
def base : UInt32 := 0x8008

def warningsAreErrors : UInt32 := 0x40000

def enableLinking : UInt32 := 0x80000000

def packByColumns : UInt32 := 0x10

def linking (options : CompileOptions) : Bool := options.bits &&& enableLinking != 0

def columnMajor (options : CompileOptions) : Bool := options.bits &&& packByColumns != 0

/-- The options of a kind of shader when none are given. Complex inputs rule out linking. -/
def defaults (kind : ShaderKind) (hasComplexInputs : Bool) : CompileOptions :=
  match kind with
  | .compute | .pixel => ⟨base⟩
  | .effect =>
    if hasComplexInputs then ⟨base ||| warningsAreErrors⟩
    else ⟨base ||| warningsAreErrors ||| enableLinking⟩

def render (options : CompileOptions) : String := Flags.write table options.bits.toNat

def read (text : String) : Option CompileOptions :=
  (Flags.read table UInt32.size text).map fun bits => ⟨UInt32.ofNat bits⟩

end CompileOptions

/-- The extents of a thread group. -/
structure GroupSize where
  x : UInt32
  y : UInt32
  z : UInt32
  deriving DecidableEq, Repr, Inhabited

def GroupSize.threads (size : GroupSize) : Nat := size.x.toNat * size.y.toNat * size.z.toNat

/-- The axes of a dispatch, as a set of flags. Unknown bits are kept. -/
structure DispatchAxes where
  bits : UInt8
  deriving DecidableEq, Repr, Inhabited

namespace DispatchAxes

def table : Flags.Table := [("X", 1), ("Y", 2), ("Z", 4)]

def xy : DispatchAxes := ⟨3⟩

def isAll (axes : DispatchAxes) : Bool := axes.bits == 7

def groupSize? (axes : DispatchAxes) : Option GroupSize :=
  match axes.bits.toNat with
  | 1 => some ⟨64, 1, 1⟩
  | 2 => some ⟨1, 64, 1⟩
  | 4 => some ⟨1, 1, 64⟩
  | 3 => some ⟨8, 8, 1⟩
  | 5 => some ⟨8, 1, 8⟩
  | 6 => some ⟨1, 8, 8⟩
  | 7 => some ⟨4, 4, 4⟩
  | _ => none

def render (axes : DispatchAxes) : String := Flags.write table axes.bits.toNat

def read (text : String) : Option DispatchAxes :=
  (Flags.read table UInt8.size text).map fun bits => ⟨UInt8.ofNat bits⟩

end DispatchAxes

/-- The targets of a compiler. -/
inductive Profile where
  | cs50 | cs60 | ps40Level91 | ps40Level93 | ps40 | ps41 | ps50
  deriving DecidableEq, Repr, Inhabited

namespace Profile

def all : List Profile := [.cs50, .cs60, .ps40Level91, .ps40Level93, .ps40, .ps41, .ps50]

def name : Profile → String
  | .cs50 => "cs_5_0"
  | .cs60 => "cs_6_0"
  | .ps40Level91 => "ps_4_0_level_9_1"
  | .ps40Level93 => "ps_4_0_level_9_3"
  | .ps40 => "ps_4_0"
  | .ps41 => "ps_4_1"
  | .ps50 => "ps_5_0"

def defaults : ShaderKind → Profile
  | .compute | .pixel => .cs60
  | .effect => .ps50

def isCompute : Profile → Bool
  | .cs50 | .cs60 => true
  | _ => false

end Profile

/-- How precise the output of an image effect is. -/
inductive Precision where
  | unknown | uint8Normalized | uint8NormalizedSrgb | uint16Normalized | float16 | float32
  deriving DecidableEq, Repr, Inhabited

namespace Precision

def all : List Precision :=
  [.unknown, .uint8Normalized, .uint8NormalizedSrgb, .uint16Normalized, .float16, .float32]

def name : Precision → String
  | .unknown => "Unknown"
  | .uint8Normalized => "UInt8Normalized"
  | .uint8NormalizedSrgb => "UInt8NormalizedSrgb"
  | .uint16Normalized => "UInt16Normalized"
  | .float16 => "Float16"
  | .float32 => "Float32"

end Precision

/-- How many channels the output of an image effect has. -/
inductive ChannelDepth where
  | unspecified | one | four
  deriving DecidableEq, Repr, Inhabited

namespace ChannelDepth

def all : List ChannelDepth := [.unspecified, .one, .four]

def name : ChannelDepth → String
  | .unspecified => "Default"
  | .one => "One"
  | .four => "Four"

end ChannelDepth

/-- How an input of an image effect is sampled. -/
inductive Filter where
  | point | linear | anisotropic
  deriving DecidableEq, Repr, Inhabited

namespace Filter

def all : List Filter := [.point, .linear, .anisotropic]

def name : Filter → String
  | .point => "MinMagMipPoint"
  | .linear => "MinMagMipLinear"
  | .anisotropic => "Anisotropic"

end Filter

/-- What is said of an input of an image effect. -/
structure InputDescription where
  index : UInt32
  filter : Filter
  levelOfDetail : Option UInt32
  deriving DecidableEq, Repr, Inhabited

/-- What is said of the output of an image effect. -/
structure OutputBuffer where
  precision : Precision
  channelDepth : ChannelDepth
  deriving DecidableEq, Repr, Inhabited

/-- What an image effect is called. -/
structure EffectInfo where
  id : Option String
  displayName : Option String
  description : Option String
  category : Option String
  author : Option String
  deriving DecidableEq, Repr, Inhabited

end Shaderlift
